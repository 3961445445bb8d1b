import Stencil.Dialect
import Stencil.Source.Rule
import Stencil.Text.Location
import Stencil.Text.Shown

/-!
# Errors in template sources

A template that cannot be read is refused with one error: a cause and the place it was found at.
The place is missing only for an expression that was not taken from a source.
-/

namespace Stencil

/-- What stands at a place where something else was expected. -/
inductive Found where
  | endOfTemplate
  | endOfLine
  /-- The beginning of the rest of the line. -/
  | text (start : String)
deriving DecidableEq, Repr

/-- Why a template source, or an expression, is refused. -/
inductive SourceCause where
  /-- The text does not follow the grammar: what was expected, and what is there. -/
  | unexpected (expected : Source.Rule) (found : Found) (dialect : Dialect)
  /-- An attribute value stands in single quotes. -/
  | singleQuoted (value : String)
  /-- A closing tag does not name the element that is open. -/
  | closingTag (opened closing : String) (openedAt : Location)
  /-- An element has two ids. -/
  | duplicateId
  /-- An expression is blank. -/
  | emptyExpression
  /-- An expression is not one of the expression language. -/
  | invalidExpression (source : String)
deriving DecidableEq, Repr

/-- A refusal: its cause and its place. -/
structure SourceError where
  cause : SourceCause
  place : Option Location
deriving DecidableEq, Repr

namespace Found

/-- The number of characters that are quoted from a line. -/
def width : Nat := 20

/-- What stands at the start of a rest of a source. -/
def ofRest (rest : List Char) : Found :=
  match rest with
  | [] => .endOfTemplate
  | '\n' :: _ => .endOfLine
  | _ => .text (String.ofList ((rest.takeWhile (· != '\n')).take width))

/-- The phrase that follows "found". -/
def phrase : Found → String
  | .endOfTemplate => "end of template"
  | .endOfLine => "end of line"
  | .text start => Text.shown start

end Found

namespace SourceCause

/-- What went wrong. The star in the text for an invalid expression stands for a reason, which is
not given. -/
def description : SourceCause → String
  | .unexpected rule found _ => s!"expected {rule.phrase}, found {found.phrase}"
  | .singleQuoted _ => "expected double-quoted attribute value"
  | .closingTag opened closing _ => s!"expected closing tag </{opened}>, found </{closing}>"
  | .duplicateId => "duplicate id of an element"
  | .emptyExpression => "expected an expression, found empty one"
  | .invalidExpression _ => "invalid expression: *"

/-- The text that is quoted, if any. -/
def excerpt? : SourceCause → Option String
  | .singleQuoted value => some value
  | .invalidExpression source => some source
  | _ => none

/-- What the writer can do. -/
def hint? : SourceCause → Option String
  | .unexpected _ _ dialect => some s!"check the {dialect.name} syntax around this place"
  | .singleQuoted _ => some "attribute values are enclosed in double quotes: name=\"value\""
  | .closingTag opened _ openedAt =>
    some s!"<{opened}> was opened at line {openedAt.line}, column {openedAt.column}"
  | .duplicateId => some "an element can have only one id"
  | .emptyExpression => some "put a Python expression inside the brackets"
  | .invalidExpression _ => none

end SourceCause

/-- A message: what went wrong, where, the text in question and a hint. -/
def composeMessage (description : String) (place : Option Location) (excerpt hint : Option String) :
    String :=
  description ++ Location.suffix place ++
    (match excerpt with
      | some text => if text.isEmpty then "" else s!" ({text})"
      | none => "") ++
    (match hint with
      | some text => s!"; hint: {text}"
      | none => "")

/-- The message that a user is shown. -/
def SourceError.message (e : SourceError) : String :=
  composeMessage e.cause.description e.place e.cause.excerpt? e.cause.hint?

end Stencil
