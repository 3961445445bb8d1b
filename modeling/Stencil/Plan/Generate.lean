import Stencil.Plan.Basic
import Stencil.Text.Escape
import Stencil.Tree.Show

/-!
# Generating plans

A tree is translated node by node. Static markup is written piece by piece; every control block
and every component has plans of its own. Trees that were read and checked are always translated.
-/

namespace Stencil

/-- Why a tree has no plan. -/
inductive PlanError where
  /-- A node is of no known kind. -/
  | unknownNode
  /-- A value is none that an attribute can have. -/
  | unknownContent (content : Content)
  /-- The content of a text is neither literal nor dynamic. -/
  | unknownText

namespace PlanError

/-- What went wrong. -/
def message : PlanError → String
  | .unknownNode => s!"unknown type of a template node: {Node.unknown.show}"
  | .unknownContent content => s!"unknown type of an attribute value: {content.show}"
  | .unknownText => "the content of a text is neither literal nor dynamic"

end PlanError

namespace Generate

/-- The markup for the declaration of the document type. -/
def doctype : String := "<!DOCTYPE html>"

/-! ## Attributes -/

/-- The texts that are not empty, joined by single spaces. -/
def joinTexts (texts : List String) : String :=
  " ".intercalate (texts.filter fun text => !text.isEmpty)

/-- A part of a joined value. -/
def part : Content → Except PlanError Part
  | .literal text => .ok (.text text)
  | .dynamic expr _ => .ok (.value expr)
  | content => .error (.unknownContent content)

/-- The texts of parts that are all literal. -/
def literalTexts? : List Part → Option (List String)
  | [] => some []
  | .text text :: rest => (literalTexts? rest).map (text :: ·)
  | .value _ :: _ => none

/-- The operation for parts; literal parts only are joined right away. -/
def joinParts (parts : List Part) : Op :=
  match literalTexts? parts with
  | some texts => .literal (Text.escape (joinTexts texts))
  | none => .joined parts

/-- The operation for the value of an attribute, between its quotes. -/
def attributeValue : Content → Except PlanError Op
  | .literal text => .ok (.literal (Text.escape text))
  | .dynamic expr _ => .ok (.escaped expr true)
  | .joined parts => do return joinParts (← parts.mapM part)
  | content => .error (.unknownContent content)

/-- The operations for an attribute. -/
def attributeOps (a : Attribute) : Except PlanError Plan :=
  match a.value with
  | .toggle expr =>
    if expr.alwaysTrue then .ok [.literal (" " ++ a.name)]
    else .ok [.toggle expr [.literal (" " ++ a.name)]]
  | value => do
    let op ← attributeValue value
    return [.literal s!" {a.name}=\"", op, .literal "\""]

/-- An attribute is translated to its name, to its name if a condition holds, or to its name and its
value in quotes. -/
theorem attributeOps_eq_ok {a : Attribute} {ops : Plan} (h : attributeOps a = .ok ops) :
    ops = [.literal (" " ++ a.name)] ∨ (∃ e, ops = [.toggle e [.literal (" " ++ a.name)]]) ∨
      ∃ op, attributeValue a.value = .ok op ∧
        ops = [.literal (" " ++ a.name ++ "=\""), op, .literal "\""] := by
  unfold attributeOps at h
  split at h
  · next e _ =>
    split at h <;> cases h
    · exact .inl rfl
    · exact .inr (.inl ⟨e, rfl⟩)
  · cases hvalue : attributeValue a.value with
    | error e =>
      rw [hvalue] at h
      cases h
    | ok op =>
      rw [hvalue] at h
      cases h
      exact .inr (.inr ⟨op, rfl, rfl⟩)

/-- The operations for the attributes of an element. -/
def attributesOps : List Attribute → Except PlanError Plan
  | [] => .ok []
  | a :: rest => do return (← attributeOps a) ++ (← attributesOps rest)

/-! ## Nodes -/

/-- The operation for a text. -/
def textOp : Content → Except PlanError Op
  | .literal text => .ok (.literal (Text.escape text))
  | .dynamic expr true => .ok (.raw expr)
  | .dynamic expr false => .ok (.escaped expr false)
  | _ => .error .unknownText

/-- The arguments that a component is given. -/
def arguments (attributes : List Attribute) : List (String × Content) :=
  attributes.map fun a => (a.name, a.value)

mutual

/-- The operations for a node. -/
def node : Node → Except PlanError Plan
  | .element name attributes children void _ => do
    let inTag ← attributesOps attributes
    let opening := .literal ("<" ++ name) :: inTag ++ [.literal ">"]
    if void then return opening
    let inside ← nodes children
    return opening ++ inside ++ [.literal s!"</{name}>"]
  | .text content _ => do return [← textOp content]
  | .doctype _ => .ok [.literal doctype]
  | .component reference attributes [] _ => .ok [.call reference (arguments attributes) none]
  | .component reference attributes (child :: children) _ => do
    let first ← node child
    let others ← nodes children
    return [.call reference (arguments attributes) (some (first ++ others))]
  | .choice branches _ => do return [.branch (← guarded branches)]
  | .each names source body _ => do return [.loop names source (← nodes body)]
  | .cases subject arms _ => do return [.switch subject (← guarded arms)]
  | .unknown => .error .unknownNode

/-- The operations for nodes. -/
def nodes : List Node → Except PlanError Plan
  | [] => .ok []
  | first :: rest => do return (← node first) ++ (← nodes rest)

/-- The plans for guarded bodies. -/
def guarded : List (Option Expr × List Node) → Except PlanError (List (Option Expr × Plan))
  | [] => .ok []
  | (condition, body) :: rest => do return (condition, ← nodes body) :: (← guarded rest)

end

end Generate

end Stencil
