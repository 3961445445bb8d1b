import Stencil.Text.Collapse
import Stencil.Tree.Basic

/-!
# Plain text on its way into a tree

Plain text between tags is collapsed where it stands. At the edges of a control block's body what
is left of its white space goes, too; so plain text is told apart from other nodes until then.
-/

namespace Stencil.Source

/-- A node, or plain text that may still be trimmed. -/
inductive Item where
  | node (n : Node)
  | plain (text : List Char) (place : Option Location)

/-- The node that an item ends up as. -/
def Item.toNode : Item → Node
  | .node n => n
  | .plain text place => .text (.literal (String.ofList text)) place

/-- Trim plain text at the start. -/
def Item.trimStart : Item → Item
  | .node n => .node n
  | .plain text place => .plain (Text.trimStart text) place

/-- Trim plain text at the end. -/
def Item.trimEnd : Item → Item
  | .node n => .node n
  | .plain text place => .plain (Text.trimEnd text) place

/-- Trim the first item. -/
def trimFirst : List Item → List Item
  | [] => []
  | item :: rest => item.trimStart :: rest

/-- Trim the last item. -/
def trimLast : List Item → List Item
  | [] => []
  | [item] => [item.trimEnd]
  | item :: rest => item :: trimLast rest

/-- The nodes of a document, an element or a component. -/
def childNodes (items : List Item) : List Node :=
  mergeTexts (items.map Item.toNode)

/-- The nodes of the body of a control block. -/
def blockNodes (items : List Item) : List Node :=
  childNodes (trimLast (trimFirst items))

end Stencil.Source
