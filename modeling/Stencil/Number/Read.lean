import Stencil.Number.Binary
import Stencil.Text.Blank
import Stencil.Text.Word

/-!
# Reading numbers

A number is read from the plain form of a text, where digits of every script are those of ASCII and
other white space is a space. White space may stand around a number, a sign before it, and single
underscores between its digits. How many digits an integer may have is limited, unless its base is
a power of two.
-/

namespace Stencil.Number

open Stencil.Text

/-- The most digits that an integer is read from or written with. -/
def digitLimit : Nat := 4300

/-! ## The plain form -/

/-- The character of ASCII that a character stands for in a number. -/
def plainChar? (c : Char) : Option Char :=
  if c.toNat < 128 then some c
  else if isSpace c then some ' '
  else (digitValue? c).map fun d => Char.ofNat ('0'.toNat + d)

/-- White space that may stand around a number. -/
def isPadding (c : Char) : Bool :=
  c == ' ' || (9 ≤ c.toNat && c.toNat ≤ 13)

/-- The plain form of a text, without the white space around it. -/
def plainForm? (text : List Char) : Option (List Char) :=
  (text.mapM plainChar?).map fun plain =>
    ((plain.dropWhile isPadding).reverse.dropWhile isPadding).reverse

/-! ## Digits and signs -/

/-- The value of a digit or letter of ASCII. -/
def symbolValue? (c : Char) : Option Nat :=
  if '0' ≤ c && c ≤ '9' then some (c.toNat - '0'.toNat)
  else if 'a' ≤ c && c ≤ 'z' then some (c.toNat - 'a'.toNat + 10)
  else if 'A' ≤ c && c ≤ 'Z' then some (c.toNat - 'A'.toNat + 10)
  else none

/-- The value of a digit in a base. -/
def digitIn? (base : Nat) (c : Char) : Option Nat :=
  (symbolValue? c).filter (· < base)

/-- The value of a run of digits. -/
def digitsValue (base : Nat) (digits : List Nat) : Nat :=
  digits.foldl (fun n d => base * n + d) 0

/-- The digits that a text starts with, and the rest. `between` tells whether an underscore is
allowed, which is so right after a digit. -/
def takeDigits (base : Nat) (between : Bool) : List Char → List Nat × List Char
  | [] => ([], [])
  | c :: rest =>
    match digitIn? base c with
    | some d =>
      let (digits, rest) := takeDigits base true rest
      (d :: digits, rest)
    | none =>
      if c == '_' && between && (rest.head?.bind (digitIn? base)).isSome then
        takeDigits base false rest
      else ([], c :: rest)

/-- The sign that a text starts with, and the rest. -/
def takeSign : List Char → Bool × List Char
  | '-' :: rest => (true, rest)
  | '+' :: rest => (false, rest)
  | text => (false, text)

/-! ## Integers -/

/-- The base that a letter after a zero announces. -/
def announcedBase? : Char → Option Nat
  | 'x' | 'X' => some 16
  | 'o' | 'O' => some 8
  | 'b' | 'B' => some 2
  | _ => none

/-- The base of an integer and its digits. Base zero is the one that the text announces, or ten;
any other may be announced, too. One underscore may follow the announcement. -/
def splitBase (base : Nat) (body : List Char) : Nat × List Char :=
  match body with
  | '0' :: letter :: rest =>
    match announcedBase? letter with
    | some announced =>
      if base == 0 || base == announced then
        (announced, if rest.head? == some '_' then rest.drop 1 else rest)
      else (base, body)
    | none => (if base == 0 then 10 else base, body)
  | _ => (if base == 0 then 10 else base, body)

/-- Whether the number of digits is limited in a base. -/
def isLimited (base : Nat) : Bool :=
  !([2, 4, 8, 16, 32].contains base)

/-- The integer that a text spells in a base up to 36. In base zero only zero starts with a
zero. -/
def readInt? (base : Nat) (text : List Char) : Option Int := do
  let (negative, body) := takeSign (← plainForm? text)
  let (actual, body') := splitBase base body
  match takeDigits actual false body' with
  | ([], _) => none
  | (digits, []) =>
    let n := Int.ofNat (digitsValue actual digits)
    if isLimited actual && digitLimit < digits.length then none
    else if base == 0 && actual == 10 && body.head? == some '0' && n != 0 then none
    else some (if negative then -n else n)
  | _ => none

/-! ## Floats -/

/-- The exponent at the end of a decimal; a text that holds anything else has none. -/
def readExponent? : List Char → Option Int
  | [] => some 0
  | e :: rest =>
    if e == 'e' || e == 'E' then
      let (negative, body) := takeSign rest
      match takeDigits 10 false body with
      | ([], _) => none
      | (digits, []) =>
        let n := Int.ofNat (digitsValue 10 digits)
        some (if negative then -n else n)
      | _ => none
    else none

/-- The float that a text spells. -/
def readFloat? (text : List Char) : Option Float := do
  let (negative, body) := takeSign (← plainForm? text)
  let word := String.ofList (body.map Char.toLower)
  if word == "inf" || word == "infinity" then some (infinity negative)
  else if word == "nan" then some (0 / 0)
  else
    let (whole, rest) := takeDigits 10 false body
    let (fraction, rest) :=
      match rest with
      | '.' :: rest => takeDigits 10 false rest
      | _ => ([], rest)
    if whole.isEmpty && fraction.isEmpty then none
    else
      (readExponent? rest).map fun exponent =>
        ofDecimal negative (digitsValue 10 (whole ++ fraction))
          (exponent - Int.ofNat fraction.length)

end Stencil.Number
