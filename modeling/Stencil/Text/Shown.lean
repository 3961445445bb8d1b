import Stencil.Text.Tables

/-!
# Text as it is shown inside other values

A string in a list, or in a message, is shown between quotes. Single quotes are preferred; double
quotes are used if the text has a single quote and no double one. Characters that are not
printable are shown by their number.
-/

namespace Stencil.Text

/-! ## Halves

Some code points are no characters: the halves of a pair that spells one character beyond the first
plane. An escape can spell a half on its own all the same. It is kept as a character of the last
private plane, which has nothing else to stand for, and is shown by its own number.
-/

/-- Whether a code point is a half. -/
def isHalfCode (n : Nat) : Bool :=
  0xD800 ≤ n && n < 0xE000

/-- How far the characters that stand for halves are from the halves. -/
def halfShift : Nat := 0x100000

/-- The character that a code point is kept as. -/
def charOf (n : Nat) : Char :=
  Char.ofNat (if isHalfCode n then n + halfShift else n)

/-- Whether a character stands for a half. -/
def isHalf (c : Char) : Bool :=
  halfShift ≤ c.toNat && isHalfCode (c.toNat - halfShift)

/-- The code point that a character is kept for. -/
def codeOf (c : Char) : Nat :=
  if isHalf c then c.toNat - halfShift else c.toNat

/-- The order of two texts, by the first code point that differs. -/
def compareTexts (a b : String) : Ordering :=
  if a.toList.any isHalf || b.toList.any isHalf then
    compare (a.toList.map codeOf) (b.toList.map codeOf)
  else compare a b

/-! ## Quotes and numbers -/

/-- Whether a character is shown as it is. -/
def isPrintable (c : Char) : Bool :=
  if c.toNat < 128 then 32 ≤ c.toNat && c.toNat < 127 else !hiddenRanges.has c

/-- A digit in base sixteen. -/
def hexDigit (n : Nat) : Char :=
  if n < 10 then Char.ofNat ('0'.toNat + n) else Char.ofNat ('a'.toNat + (n - 10))

/-- The last `width` digits of a number in base sixteen. -/
def hexDigits : Nat → Nat → List Char
  | 0, _ => []
  | width + 1, n => hexDigits width (n / 16) ++ [hexDigit (n % 16)]

/-- The number of a character that is not printable. -/
def shownCode (n : Nat) : List Char :=
  if n < 0x100 then '\\' :: 'x' :: hexDigits 2 n
  else if n < 0x10000 then '\\' :: 'u' :: hexDigits 4 n
  else '\\' :: 'U' :: hexDigits 8 n

/-- One character between quotes of the given kind. -/
def shownChar (quote : Char) (c : Char) : List Char :=
  if c = quote || c = '\\' then ['\\', c]
  else if c = '\n' then ['\\', 'n']
  else if c = '\r' then ['\\', 'r']
  else if c = '\t' then ['\\', 't']
  else if isPrintable c then [c]
  else shownCode (codeOf c)

/-- The quote that a text is shown in. -/
def quoteFor (text : List Char) : Char :=
  if text.contains '\'' && !text.contains '"' then '"' else '\''

/-- A text between quotes. -/
def shownChars (text : List Char) : List Char :=
  let quote := quoteFor text
  quote :: text.flatMap (shownChar quote) ++ [quote]

/-- A string between quotes. -/
def shown (text : String) : String :=
  String.ofList (shownChars text.toList)

end Stencil.Text
