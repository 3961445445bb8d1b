import Stencil.Source.Control

/-!
# The dialect of tags

Elements are written as tags, expressions in braces, and text stands between tags as it is:

    <div class="item" hidden?={collapsed}>
        <p>Hello, {user.name}!</p>
        @for (item in items) { <li>{item}</li> }
    </div>
-/

namespace Stencil.Source.Rsx

open Matcher

/-- White space may be skipped. -/
def skip : Matcher Unit := do
  let _ ← scan fun text => some (spaces text)

/-- An expression in braces. -/
def braced : Matcher Lexeme :=
  named .bracedExpr do
    let _ ← scan (literal ['{'])
    let body ← lexeme exprBody
    let _ ← closeBrace
    return body

/-- The value of an attribute that is there or not. -/
def attributeToggle : Matcher SurfaceValue :=
  named .attributeToggle do
    skip
    let _ ← scan (literal ['?', '='])
    skip
    return .toggle (← braced)

/-- The value of an attribute after an equals sign. -/
def attributeAssign : Matcher SurfaceValue :=
  named .attributeAssign do
    skip
    let _ ← scan (literal ['='])
    skip
    assigned braced

/-- An attribute, after white space. -/
def oneAttribute : Matcher SurfaceAttribute :=
  named .tagAttribute do
    let _ ← space
    let name ← token .attributeName attributeName
    let value ← optional (named .attributeValue (orElse attributeToggle attributeAssign))
    return ⟨name, value⟩

/-- The name in a closing tag. -/
def closingTag : Matcher Lexeme :=
  named .closingTag do
    let _ ← scan (literal ['<', '/'])
    skip
    let name ← token .tagName tagName
    skip
    let _ ← scan (literal ['>'])
    return name

variable (nodes : Matcher (List Surface))

/-- The end of a tag that has no children, or the children and the closing tag. -/
def tagTail : Matcher (List Surface × Option Lexeme) :=
  named .tagTail (orElse
    (do let _ ← token .selfClose (literal ['/', '>']); return ([], none))
    (named .tagBody do
      let _ ← scan (literal ['>'])
      let children ← nodes
      return (children, some (← closingTag))))

/-- An element or a component. -/
def element : Matcher Surface :=
  named .element do
    let offset ← Matcher.offset
    let _ ← scan (literal ['<'])
    let name ← token .tagName tagName
    let attributes ← many oneAttribute
    skip
    let (children, closing) ← tagTail nodes
    return .element offset name [] attributes children closing

/-- Nodes without a tag of their own. -/
def fragment : Matcher Surface :=
  named .fragment do
    let _ ← scan (literal ['<', '>'])
    let children ← nodes
    let _ ← token .fragmentClose (literal ['<', '/', '>'])
    return .group children

/-- The body of a control block. -/
def block : Matcher (List Surface) :=
  named .block do
    let _ ← scan (literal ['{'])
    let body ← nodes
    let _ ← closeBrace
    return body

/-- Control blocks among tags. -/
def style : ControlStyle := ⟨skip, block nodes⟩

/-- One node, given the matcher of lists of nodes. -/
def node : Matcher Surface :=
  named .node (firstOf [
    do let _ ← token .comment comment; return .comment,
    do return .doctype (← token .doctype doctype).offset,
    fragment nodes,
    (style nodes).rawOutput,
    (style nodes).control,
    element nodes,
    named .dynamicText do
      let offset ← Matcher.offset
      return .splice offset (← braced),
    quoted,
    do return .plain (← token .bareText plainText)])

/-- Nodes that nest at most so deep. -/
def nodesWithin : Nat → Cursor → Outcome (List Surface)
  | 0, c => fail c
  | n + 1, c => many (node (nodesWithin n)) c

/-- A whole source that nests at most so deep. -/
def document (depth : Nat) : Matcher (List Surface) :=
  named .document do
    let nodes ← (nodesWithin depth : Matcher (List Surface))
    let _ ← endOfInput
    return nodes

end Stencil.Source.Rsx
