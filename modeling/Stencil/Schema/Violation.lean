import Stencil.Schema.Registry
import Stencil.Text.Case
import Stencil.Tree.Walk

/-!
# Checking trees

A tree is checked against a registry before anything is generated from it. All violations are
collected, element by element in document order, and reported together. Expressions are not
evaluated; only their form is looked at.
-/

namespace Stencil.Schema

/-- What can be wrong with an element. -/
inductive Violation where
  /-- There is no such element; the name in small letters is given if that is one. -/
  | unknownElement (name : String) (suggestion : Option String) (place : Option Location)
  /-- The element does not have this attribute. -/
  | unknownAttribute (attr element : String) (place : Option Location)
  /-- A void element has content. -/
  | voidHasChildren (name : String) (place : Option Location)
  /-- An attribute is given as an expression that is a string with quotes in it. -/
  | ambiguousQuoting (attr : String) (place : Option Location)
deriving DecidableEq, Repr

namespace Violation

/-- The word for the kind of a violation. -/
def kind : Violation → String
  | .unknownElement .. => "UnknownElement"
  | .unknownAttribute .. => "UnknownAttribute"
  | .voidHasChildren .. => "VoidElementHasChildren"
  | .ambiguousQuoting .. => "AmbiguousQuoting"

/-- Where the violation is. -/
def place : Violation → Option Location
  | .unknownElement _ _ place => place
  | .unknownAttribute _ _ place => place
  | .voidHasChildren _ place => place
  | .ambiguousQuoting _ place => place

/-- What went wrong. -/
def description : Violation → String
  | .unknownElement name _ _ => s!"<{name}> is not a known element"
  | .unknownAttribute attr element _ =>
    s!"attribute '{attr}' is not allowed on <{element}>"
  | .voidHasChildren name _ => s!"void element <{name}> cannot have children"
  | .ambiguousQuoting attr _ =>
    s!"attribute '{attr}' is given as an expression made of a string literal " ++
      "with quote characters"

/-- What the writer can do. -/
def hint : Violation → String
  | .unknownElement _ (some suggestion) _ => s!"did you mean <{suggestion}>?"
  | .unknownElement _ none _ =>
    "register custom elements in the schema registry before compiling templates"
  | .unknownAttribute .. => "use a data-* attribute for custom data"
  | .voidHasChildren name _ => s!"write <{name} .../> with attributes only"
  | .ambiguousQuoting .. =>
    "write the value as a plain literal: name=\"...\" or pass it in a variable"

/-- The violation in one line. -/
def message (v : Violation) : String :=
  s!"{v.kind}: {composeMessage v.description v.place none (some v.hint)}"

/-- The text of the error that reports several violations. -/
def report (violations : List Violation) : String :=
  s!"{violations.length} violation(s) found in template:\n  " ++
    "\n  ".intercalate (violations.map message)

end Violation

/-! ## Expressions in quotes -/

/-- Whether an expression is one string literal with a quote between its first and its last
character. -/
def isAmbiguous (e : Expr) : Bool :=
  e.isStringLiteral && e.inner.any fun c => c == '"' || c == '\''

/-- The expressions of an attribute whose form is looked at. -/
def inspected : Content → List Expr
  | .dynamic e _ => [e]
  | .toggle e => [e]
  | .joined parts => parts.filterMap fun
    | .dynamic e _ => some e
    | _ => none
  | _ => []

/-! ## Elements -/

namespace Registry

variable (r : Registry)

/-- What is wrong with a name that has no entry. -/
def missing (name : String) (place : Option Location) : Violation :=
  let small := String.ofList (Text.lower name.toList)
  .unknownElement name (if r.has small then some small else none) place

/-- What is wrong with one attribute on the element of an entry. -/
def attributeViolations (entry : Entry) (element : String) (a : Attribute) : List Violation :=
  (if r.allows entry a.name then [] else [.unknownAttribute a.name element a.place]) ++
    ((inspected a.value).filter isAmbiguous).map fun e =>
      .ambiguousQuoting a.name (e.place <|> a.place)

/-- What is wrong with one node, what it holds aside. -/
def nodeViolations : Node → List Violation
  | .element name attributes children _ place =>
    match r.lookup name with
    | none => [r.missing name place]
    | some entry =>
      (if entry.isVoid && !children.isEmpty then [.voidHasChildren name place] else []) ++
        attributes.flatMap (r.attributeViolations entry name)
  | _ => []

/-- What is wrong with a tree. -/
def violations (nodes : List Node) : List Violation :=
  (walk nodes).flatMap r.nodeViolations

/-! ## Void marks -/

mutual

/-- The node with every known element below it marked as void or not. -/
def markNode : Node → Node
  | .element name attributes children void place =>
    let void := match r.lookup name with
      | some entry => entry.isVoid
      | none => void
    .element name attributes (mark children) void place
  | .component reference arguments children place =>
    .component reference arguments (mark children) place
  | .choice branches place => .choice (markBodies branches) place
  | .each names source body place => .each names source (mark body) place
  | .cases subject arms place => .cases subject (markBodies arms) place
  | node => node

/-- The nodes with every known element marked. -/
def mark : List Node → List Node
  | [] => []
  | node :: rest => markNode node :: mark rest

/-- The bodies with every known element marked. -/
def markBodies : List (Option Expr × List Node) → List (Option Expr × List Node)
  | [] => []
  | (condition, body) :: rest => (condition, mark body) :: markBodies rest

end

/-- Check a tree: the tree with its void marks, or all violations. -/
def check (nodes : List Node) : Except (List Violation) (List Node) :=
  match r.violations nodes with
  | [] => .ok (r.mark nodes)
  | violations => .error violations

variable {nodes : List Node}

theorem check_of_nil (h : r.violations nodes = []) : r.check nodes = .ok (r.mark nodes) := by
  simp [check, h]

theorem check_of_ne_nil (h : r.violations nodes ≠ []) :
    r.check nodes = .error (r.violations nodes) := by
  cases hv : r.violations nodes with
  | nil => exact absurd hv h
  | cons v rest => simp [check, hv]

theorem check_eq_ok {tree : List Node} :
    r.check nodes = .ok tree ↔ r.violations nodes = [] ∧ r.mark nodes = tree := by
  by_cases hnil : r.violations nodes = []
  · rw [r.check_of_nil hnil]
    simp [hnil]
  · rw [r.check_of_ne_nil hnil]
    simp [hnil]

theorem check_eq_error {violations : List Violation} :
    r.check nodes = .error violations ↔ violations ≠ [] ∧ r.violations nodes = violations := by
  by_cases hnil : r.violations nodes = []
  · rw [r.check_of_nil hnil, hnil]
    simp [eq_comm]
  · rw [r.check_of_ne_nil hnil]
    constructor
    · rintro ⟨rfl⟩
      exact ⟨hnil, rfl⟩
    · rintro ⟨-, rfl⟩
      rfl

end Registry

end Stencil.Schema
