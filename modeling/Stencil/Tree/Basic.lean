import Stencil.Expr

/-!
# Template trees

What a template says, whatever dialect it is written in. Trees are built by reading a source or by
hand; a tree built by hand may hold an `unknown` part, which checking passes over and code
generation refuses.
-/

namespace Stencil

/-- A value of an attribute or the content of a text. -/
inductive Content where
  /-- Text that is known when the template is compiled. -/
  | literal (text : String)
  /-- The value of an expression; `raw` output is not escaped. -/
  | dynamic (expr : Expr) (raw : Bool)
  /-- An attribute without a value, present if the expression is true. -/
  | toggle (expr : Expr)
  /-- Parts joined by single spaces. -/
  | joined (parts : List Content)
  /-- Something that has no meaning here. -/
  | unknown

/-- An attribute of an element or an argument of a component. -/
structure Attribute where
  name : String
  value : Content
  place : Option Location := none

/-- A node of a template tree. -/
inductive Node where
  | element (name : String) (attributes : List Attribute) (children : List Node) (void : Bool)
      (place : Option Location)
  | text (content : Content) (place : Option Location)
  | doctype (place : Option Location)
  /-- A component with its arguments; what stands inside is passed on as `children`. -/
  | component (reference : Expr) (arguments : List Attribute) (children : List Node)
      (place : Option Location)
  /-- The first branch whose condition is true or missing. -/
  | choice (branches : List (Option Expr × List Node)) (place : Option Location)
  /-- The body once for every item. -/
  | each (names : List String) (source : Expr) (body : List Node) (place : Option Location)
  /-- The first arm whose pattern equals the subject or is missing. -/
  | cases (subject : Expr) (arms : List (Option Expr × List Node)) (place : Option Location)
  | unknown

namespace Content

/-- The text of a literal. -/
def literal? : Content → Option String
  | .literal text => some text
  | _ => none

end Content

namespace Node

/-- Where the node begins. -/
def place : Node → Option Location
  | .element _ _ _ _ place => place
  | .text _ place => place
  | .doctype place => place
  | .component _ _ _ place => place
  | .choice _ place => place
  | .each _ _ _ place => place
  | .cases _ _ place => place
  | .unknown => none

/-- The text of a literal text node. -/
def literal? : Node → Option String
  | .text content _ => content.literal?
  | _ => none

/-- The word for the kind of a node. -/
def kind : Node → String
  | .element .. => "Element"
  | .text .. => "Text"
  | .doctype .. => "Doctype"
  | .component .. => "ComponentCall"
  | .choice .. => "If"
  | .each .. => "For"
  | .cases .. => "Match"
  | .unknown => "Node"

end Node

/-! ## Literal texts in a list of nodes -/

/-- Drop empty literal texts and merge neighbouring ones; a merged text begins where its first part
does. -/
def mergeTexts : List Node → List Node
  | [] => []
  | node :: rest =>
    match node.literal? with
    | none => node :: mergeTexts rest
    | some first =>
      if first.isEmpty then mergeTexts rest
      else
        match mergeTexts rest with
        | [] => [node]
        | next :: more =>
          match next.literal? with
          | some second => .text (.literal (first ++ second)) node.place :: more
          | none => node :: next :: more

end Stencil
