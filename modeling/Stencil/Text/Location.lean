/-!
# Locations in a source text

An offset counts characters from the start of the text. A location is the same place as a reader
counts it: lines and columns from 1, where only a newline ends a line.
-/

namespace Stencil

/-- A place in a text: line and column, both from 1. -/
structure Location where
  line : Nat
  column : Nat
deriving DecidableEq, Repr, Inhabited

namespace Location

/-- The offset at which the line of `offset` begins. -/
def lineStart (text : List Char) (offset : Nat) : Nat :=
  let before := text.take offset
  before.length - (before.reverse.takeWhile (· != '\n')).length

/-- The location of an offset: the newlines before it and the distance from the start of its
line. -/
def ofOffset (text : List Char) (offset : Nat) : Location where
  line := (text.take offset).count '\n' + 1
  column := offset - lineStart text offset + 1

/-- Order of reading: by line, then by column. -/
def before (a b : Location) : Prop :=
  a.line < b.line ∨ (a.line = b.line ∧ a.column < b.column)

instance (a b : Location) : Decidable (a.before b) :=
  inferInstanceAs (Decidable (_ ∨ _))

/-- The words that tell a reader where something is. -/
def suffix (place : Option Location) : String :=
  match place with
  | none => ""
  | some l => s!" at line {l.line}, column {l.column}"

end Location

end Stencil
