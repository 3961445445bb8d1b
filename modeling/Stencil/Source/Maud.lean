import Stencil.Source.Control

/-!
# The dialect of blocks

An element is its name, classes and ids, attributes and then a block or a semicolon; expressions
stand in parentheses and text in double quotes:

    div.item hidden[collapsed] {
        p { "Hello, " (user.name) "!" }
        @for item in items { li { (item) } }
    }
-/

namespace Stencil.Source.Maud

open Matcher

/-- White space and line comments may be skipped. -/
def skip : Matcher Unit := do
  let _ ← scan fun text => some (spacesAndComments false text)

/-- An expression in parentheses. -/
def splice : Matcher Lexeme :=
  named .splice do
    let _ ← scan (literal ['('])
    let body ← lexeme exprBody
    let _ ← closeParen
    return body

/-- The value of an attribute that is there or not. -/
def attributeToggle : Matcher SurfaceValue :=
  named .blockAttributeToggle do
    let _ ← scan (literal ['['])
    let body ← lexeme exprBody
    let _ ← closeBracket
    return .toggle body

/-- The value of an attribute after an equals sign. -/
def attributeAssign : Matcher SurfaceValue :=
  named .blockAttributeAssign do
    skip
    let _ ← scan (literal ['='])
    skip
    assigned splice

/-- An attribute. -/
def oneAttribute : Matcher SurfaceAttribute :=
  named .blockAttribute do
    let name ← token .attributeName attributeName
    let value ← optional (named .blockAttributeValue (orElse attributeToggle attributeAssign))
    return ⟨name, value⟩

/-- Attributes in parentheses, with commas between them or not. -/
def parenAttributes : Matcher (List SurfaceAttribute) :=
  named .parenAttributes do
    skip
    let _ ← scan (literal ['('])
    skip
    let attributes ← many do
      let a ← oneAttribute
      skip
      let _ ← optional (scan (literal [',']))
      skip
      return a
    let _ ← closeParen
    return attributes

/-- The attributes of an element. -/
def attributes : Matcher (List SurfaceAttribute) :=
  orElse parenAttributes (many do let _ ← space; oneAttribute)

/-- A class or an id. -/
def shorthand : Matcher Shorthand :=
  named .shorthand do
    let mark ← scan shorthandMark
    let value ← named .shortValue (firstOf [
      do return .name (← token .shortName shortName),
      do return .quoted (← token .quotedText quotedText),
      do return .expr (← splice)])
    return ⟨mark.offset, mark.chars == ['.'], value⟩

variable (nodes : Matcher (List Surface))

/-- Nodes between braces. -/
def block : Matcher (List Surface) :=
  named .block do
    let _ ← scan (literal ['{'])
    skip
    let body ← nodes
    let _ ← closeBrace
    return body

/-- Control blocks among blocks. -/
def style : ControlStyle := ⟨skip, block nodes⟩

/-- An element or a component. -/
def element : Matcher Surface :=
  named .element do
    let offset ← Matcher.offset
    let name ← token .blockName blockName
    let shorthands ← many shorthand
    let attributes ← attributes
    skip
    let children ← named .elementEnd (orElse
      (do let _ ← token .semicolon (literal [';']); return [])
      (block nodes))
    return .element offset name shorthands attributes children none

/-- One node, given the matcher of lists of nodes. -/
def node : Matcher Surface :=
  named .blockNode (firstOf [
    do return .doctype (← token .doctype (literal ['!', 'D', 'O', 'C', 'T', 'Y', 'P', 'E'])).offset,
    (style nodes).rawOutput,
    (style nodes).control,
    named .spliceText do
      let offset ← Matcher.offset
      return .splice offset (← splice),
    quoted,
    do return .number (← token .number number),
    do return .group (← block nodes),
    element nodes])

/-- Nodes that nest at most so deep. -/
def nodesWithin : Nat → Cursor → Outcome (List Surface)
  | 0, c => fail c
  | n + 1, c => many (spaced (node (nodesWithin n))) c
where
  /-- White space may follow a node. -/
  spaced (one : Matcher Surface) : Matcher Surface := do
    let found ← one
    skip
    return found

/-- A whole source that nests at most so deep. -/
def document (depth : Nat) : Matcher (List Surface) :=
  named .document do
    skip
    let nodes ← (nodesWithin depth : Matcher (List Surface))
    let _ ← endOfInput
    return nodes

end Stencil.Source.Maud
