import Stencil.Text.Shown
import Stencil.Tree.Basic

/-!
# The text of a tree

Trees are shown as constructor applications, for messages and for inspection.
-/

namespace Stencil

/-- Items between brackets. -/
def showList (items : List String) : String :=
  "[" ++ ", ".intercalate items ++ "]"

/-- Items between parentheses; a single item is followed by a comma. -/
def showTuple : List String → String
  | [item] => s!"({item},)"
  | items => "(" ++ ", ".intercalate items ++ ")"

/-- An expression as it is shown. -/
def Expr.show (e : Expr) : String :=
  s!"Expr({Text.shown e.source})"

/-- A truth value as it is shown. -/
def showBool (b : Bool) : String :=
  if b then "True" else "False"

/-- A condition as it is shown. -/
def showCondition : Option Expr → String
  | none => "None"
  | some e => e.show

mutual

/-- A content as it is shown. -/
def Content.show : Content → String
  | .literal text => s!"Literal({Text.shown text})"
  | .dynamic expr raw => s!"Dynamic({expr.show}, {showBool raw})"
  | .toggle expr => s!"BooleanToggle({expr.show})"
  | .joined parts => s!"Concat({showList (showContents parts)})"
  | .unknown => "Struct()"

/-- Contents as they are shown. -/
def showContents : List Content → List String
  | [] => []
  | c :: rest => c.show :: showContents rest

end

/-- An attribute as it is shown. -/
def Attribute.show (a : Attribute) : String :=
  s!"Attribute({Text.shown a.name}, {a.value.show})"

mutual

/-- A node as it is shown. -/
def Node.show : Node → String
  | .element name attributes children _ _ =>
    s!"Element({Text.shown name}, {showList (attributes.map Attribute.show)}, " ++
      showList (showNodes children) ++ ")"
  | .text content _ => s!"Text({content.show})"
  | .doctype _ => "Doctype()"
  | .component reference arguments children _ =>
    s!"ComponentCall({reference.show}, {showList (arguments.map Attribute.show)}, " ++
      showList (showNodes children) ++ ")"
  | .choice branches _ => s!"If({showList (showBranches branches)})"
  | .each names source body _ =>
    s!"For({showList (names.map Text.shown)}, {source.show}, {showList (showNodes body)})"
  | .cases subject arms _ => s!"Match({subject.show}, {showList (showBranches arms)})"
  | .unknown => "Node()"

/-- Nodes as they are shown. -/
def showNodes : List Node → List String
  | [] => []
  | n :: rest => n.show :: showNodes rest

/-- Guarded bodies as they are shown. -/
def showBranches : List (Option Expr × List Node) → List String
  | [] => []
  | (condition, body) :: rest =>
    s!"({showCondition condition}, {showList (showNodes body)})" :: showBranches rest

end

/-- A tree as it is shown. -/
def showTree (nodes : List Node) : String :=
  showList (showNodes nodes)

end Stencil
