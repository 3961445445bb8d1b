import Stencil.Text.Tables

/-!
# Word characters

The classes of characters that names are made of. ASCII is decided by comparison, the rest by the
tables.
-/

namespace Stencil.Text

/-- A letter of ASCII. -/
def isAsciiLetter (c : Char) : Bool :=
  ('a' ≤ c && c ≤ 'z') || ('A' ≤ c && c ≤ 'Z')

/-- A letter of ASCII or the underscore, which may begin a name. -/
def isNameHead (c : Char) : Bool :=
  isAsciiLetter c || c == '_'

/-- A letter, or a symbol of general category Nl. -/
def isLetter (c : Char) : Bool :=
  if c.toNat < 128 then isAsciiLetter c else letterRanges.has c

/-- A decimal digit of any script. -/
def isDigit (c : Char) : Bool :=
  if c.toNat < 128 then '0' ≤ c && c ≤ '9' else digitRanges.has c

/-- A letter, a decimal digit or the underscore. -/
def isPlainWord (c : Char) : Bool :=
  isLetter c || isDigit c || c == '_'

/-- A word character: one of a plain word, a mark, connecting punctuation, a letter symbol or one
of the two joiners. -/
def isWord (c : Char) : Bool :=
  if c.toNat < 128 then isPlainWord c
  else isPlainWord c || markRanges.has c || connectorRanges.has c || letterSymbolRanges.has c ||
    c.toNat == 0x200C || c.toNat == 0x200D

/-- A character that may continue an identifier. -/
def isIdentifierRest (c : Char) : Bool :=
  isPlainWord c || markRanges.has c || connectorRanges.has c

/-- A character that may begin an identifier. -/
def isIdentifierHead (c : Char) : Bool :=
  isLetter c || c == '_'

/-- The value of a decimal digit: digits of each script are ten consecutive code points. -/
def digitValue? (c : Char) : Option Nat :=
  if c.toNat < 128 then
    if '0' ≤ c && c ≤ '9' then some (c.toNat - '0'.toNat) else none
  else
    (digitRanges.find? fun (low, high) => low ≤ c.toNat && c.toNat ≤ high).map
      fun (low, _) => (c.toNat - low) % 10

end Stencil.Text
