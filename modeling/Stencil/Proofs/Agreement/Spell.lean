import Stencil.Dialect
import Stencil.Term.Token
import Stencil.Tree.Same

/-!
# Spelling trees

Trees of a simple kind can be written down in either dialect: their names and expressions are words
of ASCII, and no two literal texts are neighbours, which would be one text when they are read again.
Everything is spelled with no more space than is needed.
-/

namespace Stencil

open Text

/-! ## Names -/

/-- Whether a text is not empty, its first character is of one kind and all others of another. -/
def isShaped (head rest : Char → Bool) : List Char → Bool
  | [] => false
  | c :: more => head c && more.all rest

/-- A small letter of ASCII. -/
def isSmall (c : Char) : Bool :=
  'a' ≤ c && c ≤ 'z'

/-- A capital of ASCII. -/
def isCapital (c : Char) : Bool :=
  'A' ≤ c && c ≤ 'Z'

/-- Whether a text is an identifier of ASCII. -/
def isIdentifier : List Char → Bool :=
  isShaped isNameHead fun c => isNameHead c || Term.isAsciiDigit c

/-- Whether a text is a name that elements and attributes can have. -/
def isPlainName : List Char → Bool :=
  isShaped isSmall fun c => isSmall c || Term.isAsciiDigit c || c == '-'

/-- Whether a text is a name that components can have. -/
def isCapitalName : List Char → Bool :=
  isShaped isCapital fun c => isAsciiLetter c || Term.isAsciiDigit c

/-! ## Trees that can be spelled -/

/-- Whether an attribute can be spelled. -/
def Attribute.CanBeSpelled (a : Attribute) : Prop :=
  isPlainName a.name.toList ∧
    match a.value with
    | .literal text => '"' ∉ text.toList
    | .dynamic e raw => isIdentifier e.source.toList ∧ raw = false
    | .toggle e => isIdentifier e.source.toList
    | _ => False

mutual

/-- Whether a node can be spelled. -/
def Node.CanBeSpelled : Node → Prop
  | .element name attributes children _ _ =>
    isPlainName name.toList ∧ (∀ a ∈ attributes, a.CanBeSpelled) ∧ NodesCanBeSpelled children
  | .component reference arguments children _ =>
    isCapitalName reference.source.toList ∧ (∀ a ∈ arguments, a.CanBeSpelled) ∧
      NodesCanBeSpelled children
  | .text (.literal text) _ => text ≠ ""
  | .text (.dynamic e _) _ => isIdentifier e.source.toList
  | .text _ _ => False
  | .doctype _ => True
  | .choice branches _ => BranchesCanBeSpelled true branches
  | .each names source body _ =>
    names ≠ [] ∧ (∀ name ∈ names, isIdentifier name.toList) ∧ isIdentifier source.source.toList ∧
      NodesCanBeSpelled body
  | .cases subject arms _ => isIdentifier subject.source.toList ∧ ArmsCanBeSpelled arms
  | .unknown => False

/-- Whether nodes can be spelled side by side. -/
def NodesCanBeSpelled : List Node → Prop
  | [] => True
  | n :: rest =>
    n.CanBeSpelled ∧ (n.literal? = none ∨ (rest.head?.bind Node.literal?) = none) ∧
      NodesCanBeSpelled rest

/-- Whether branches can be spelled: the first one has a condition, and only the last one may have
none. -/
def BranchesCanBeSpelled (first : Bool) : List (Option Expr × List Node) → Prop
  | [] => first = false
  | (none, body) :: rest => first = false ∧ NodesCanBeSpelled body ∧ rest = []
  | (some condition, body) :: rest =>
    isIdentifier condition.source.toList ∧ NodesCanBeSpelled body ∧ BranchesCanBeSpelled false rest

/-- Whether the arms of a match can be spelled. -/
def ArmsCanBeSpelled : List (Option Expr × List Node) → Prop
  | [] => True
  | (none, body) :: rest => NodesCanBeSpelled body ∧ ArmsCanBeSpelled rest
  | (some pattern, body) :: rest =>
    isIdentifier pattern.source.toList ∧ pattern.source ≠ "_" ∧ NodesCanBeSpelled body ∧
      ArmsCanBeSpelled rest

end

/-- A text that can be spelled is a literal or the value of an expression. -/
theorem Node.text_canBeSpelled {content : Content} {place : Option Location}
    (h : (Node.text content place).CanBeSpelled) : (∃ s, content = .literal s) ∨
      ∃ e raw, content = .dynamic e raw ∧ isIdentifier e.source.toList := by
  cases content with
  | literal s => exact .inl ⟨s, rfl⟩
  | dynamic e raw =>
    rw [Node.CanBeSpelled] at h
    exact .inr ⟨e, raw, rfl, h⟩
  | _ => simp [Node.CanBeSpelled] at h

/-! ## Spelling -/

namespace Spell

/-- A text with a backslash in front of every quote and every backslash. -/
def escape : List Char → List Char
  | [] => []
  | c :: rest => if c = '\\' ∨ c = '"' then '\\' :: c :: escape rest else c :: escape rest

/-- A text in double quotes. -/
def quote (text : List Char) : List Char :=
  '"' :: (escape text ++ ['"'])

variable (d : Dialect)

/-- An expression whose value is put in. -/
def splice (e : Expr) : List Char :=
  match d with
  | .rsx => '{' :: (e.source.toList ++ ['}'])
  | .maud => '(' :: (e.source.toList ++ [')'])

/-- The value of an attribute, behind its name. A toggle that is always on has none. -/
def value : Content → List Char
  | .literal text => '=' :: '"' :: (text.toList ++ ['"'])
  | .dynamic e _ => '=' :: splice d e
  | .toggle e =>
    if e.source = "True" then []
    else match d with
      | .rsx => '?' :: '=' :: splice d e
      | .maud => '[' :: (e.source.toList ++ [']'])
  | _ => []

/-- Attributes, each behind a space. -/
def attributes : List Attribute → List Char
  | [] => []
  | a :: rest => ' ' :: (a.name.toList ++ (value d a.value ++ attributes rest))

/-- Nodes between braces. -/
def block (inside : List Char) : List Char :=
  '{' :: (inside ++ ['}'])

/-- An element or a component. -/
def tagged (name : List Char) (arguments : List Attribute) (inside : List Char) : List Char :=
  match d with
  | .rsx =>
    '<' :: (name ++ (attributes d arguments ++
      '>' :: (inside ++ '<' :: '/' :: (name ++ ['>']))))
  | .maud => name ++ (attributes d arguments ++ ' ' :: block inside)

/-- A text. -/
def text : Content → List Char
  | .literal s => quote s.toList
  | .dynamic e true => "@raw(".toList ++ (e.source.toList ++ [')'])
  | .dynamic e false => splice d e
  | _ => []

/-- The declaration of the document type. -/
def doctype : List Char :=
  match d with
  | .rsx => "<!DOCTYPE html>".toList
  | .maud => "!DOCTYPE".toList

/-- What stands between two nodes. -/
def gap : List Char :=
  match d with
  | .rsx => []
  | .maud => [' ']

/-- Further names, each behind a comma. -/
def furtherNames : List String → List Char
  | [] => []
  | name :: rest => ',' :: ' ' :: (name.toList ++ furtherNames rest)

/-- Names with commas between them. -/
def names : List String → List Char
  | [] => []
  | name :: rest => name.toList ++ furtherNames rest

/-- What opens a branch, in front of its block. -/
def opening (first : Bool) (condition : Option Expr) : List Char :=
  (if first then ['@'] else " @else ".toList) ++
    match condition with
    | some e => "if ".toList ++ (e.source.toList ++ [' '])
    | none => []

/-- A pattern with its block. -/
def arm (pattern : Option Expr) (inside : List Char) : List Char :=
  (match pattern with
    | some e => e.source.toList
    | none => ['_']) ++ (" => ".toList ++ block inside)

mutual

/-- A node. -/
def node : Node → List Char
  | .element name arguments children _ _ => tagged d name.toList arguments (nodes children)
  | .component reference arguments children _ =>
    tagged d reference.source.toList arguments (nodes children)
  | .text content _ => text d content
  | .doctype _ => doctype d
  | .choice branches _ => guarded true branches
  | .each names source body _ =>
    "@for ".toList ++ (Spell.names names ++ (" in ".toList ++ (source.source.toList ++
      ' ' :: block (nodes body))))
  | .cases subject arms _ =>
    "@match ".toList ++ (subject.source.toList ++ ' ' :: block (cases arms))
  | .unknown => []

/-- Nodes side by side. -/
def nodes : List Node → List Char
  | [] => []
  | [n] => node n
  | n :: rest => node n ++ (gap d ++ nodes rest)

/-- Branches. -/
def guarded (first : Bool) : List (Option Expr × List Node) → List Char
  | [] => []
  | (condition, body) :: rest =>
    opening first condition ++ (block (nodes body) ++ guarded false rest)

/-- The arms of a match. -/
def cases : List (Option Expr × List Node) → List Char
  | [] => []
  | [(condition, body)] => arm condition (nodes body)
  | (condition, body) :: rest => arm condition (nodes body) ++ ' ' :: cases rest

end

/-! ### One level at a time -/

section

variable (place : Option Location)

theorem node_each (loop : List String) (iterable : Expr) (body : List Node) :
    node d (.each loop iterable body place) =
      ['@', 'f', 'o', 'r', ' '] ++ (names loop ++ ([' ', 'i', 'n', ' '] ++
        (iterable.source.toList ++ ' ' :: block (nodes d body)))) :=
  rfl

theorem node_cases (subject : Expr) (arms : List (Option Expr × List Node)) :
    node d (.cases subject arms place) =
      ['@', 'm', 'a', 't', 'c', 'h', ' '] ++
        (subject.source.toList ++ ' ' :: block (cases d arms)) :=
  rfl

theorem nodes_cons (n m : Node) (rest : List Node) :
    nodes d (n :: m :: rest) = node d n ++ (gap d ++ nodes d (m :: rest)) :=
  rfl

theorem guarded_cons (first : Bool) (condition : Option Expr) (body : List Node)
    (rest : List (Option Expr × List Node)) : guarded d first ((condition, body) :: rest) =
      opening first condition ++ (block (nodes d body) ++ guarded d false rest) :=
  rfl

theorem cases_cons (pattern : Option Expr) (body : List Node) (a : Option Expr × List Node)
    (rest : List (Option Expr × List Node)) : cases d ((pattern, body) :: a :: rest) =
      arm pattern (nodes d body) ++ ' ' :: cases d (a :: rest) :=
  rfl

end

/-- A tree as a source in a dialect. -/
def source (tree : List Node) : String :=
  String.ofList (nodes d tree)

end Spell

end Stencil
