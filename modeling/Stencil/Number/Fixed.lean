import Stencil.Number.Shortest

/-!
# Decimals of a given precision

Where the number of digits is asked for, the exact value of a float is rounded to it, and a tie
goes to the even digit. There are three styles: places behind the point, an exponent, and the one
of the two that suits the magnitude.
-/

namespace Stencil.Number

/-- How a float is written. -/
inductive FloatStyle where
  /-- So many places behind the point. -/
  | places
  /-- One digit before the point, so many behind it, and an exponent. -/
  | exponent
  /-- So many digits in all, without zeros at the end. -/
  | general
deriving DecidableEq, Repr

/-- The natural number nearest to `m * 2 ^ q * 10 ^ places`; a tie goes to the even one. -/
def scaled (m : Nat) (q places : Int) : Nat :=
  roundQuotient (m * twoTo q.toNat * tenTo places.toNat)
    (twoTo (-q).toNat * tenTo (-places).toNat)

/-- Digits with a point before the last `places` of them. A point that nothing follows is kept only
if that is asked for. -/
def pointed (keepPoint : Bool) (places : Nat) (digits : List Char) : List Char :=
  let padded := padZeros (places + 1) digits
  let whole := padded.length - places
  let fraction := padded.drop whole
  padded.take whole ++ (if fraction.isEmpty && !keepPoint then [] else '.' :: fraction)

/-- The value `m * 2 ^ q` rounded to `count` digits: the digits and the exponent of the first. -/
def roundedDigits (m : Nat) (q : Int) (count : Nat) : List Char × Int :=
  if m == 0 then (List.replicate count '0', 0)
  else
    let (num, den) := powerOfTwo q
    let exponent := decimalExponent (m * num) den
    let digits := Nat.toDigits 10 (scaled m q (Int.ofNat count - 1 - exponent))
    if digits.length ≤ count then (digits, exponent) else (digits.take count, exponent + 1)

/-- Digits with a point after the first one and an exponent. -/
def withExponent (keepPoint : Bool) (digits : List Char) (exponent : Int) : List Char :=
  pointed keepPoint (digits.length - 1) digits ++ 'e' :: (if exponent < 0 then '-' else '+') ::
    padZeros layout.exponentWidth (Nat.toDigits 10 exponent.natAbs)

/-- Digits in positional notation, the first of them with the given exponent. -/
def withoutExponent (keepPoint : Bool) (digits : List Char) (exponent : Int) : List Char :=
  let padded := digits ++ List.replicate ((exponent + 1).toNat - digits.length) '0'
  pointed keepPoint (Int.ofNat padded.length - 1 - exponent).toNat padded

/-- A magnitude in general style: positional, unless the exponent is below -4 or the digits do not
reach the point. -/
def generalChars (keepZeros : Bool) (count : Nat) (m : Nat) (q : Int) : List Char :=
  let (digits, exponent) := roundedDigits m q (max count 1)
  let shortened := digits.take 1 ++ dropTrailingZeros (digits.drop 1)
  let digits := if keepZeros then digits else shortened
  if exponent < -4 || Int.ofNat (max count 1) ≤ exponent then
    withExponent keepZeros digits exponent
  else withoutExponent keepZeros digits exponent

/-- The text of a float in a style and with a precision. `full` keeps the point and the zeros that
could be left out. -/
def styledChars (style : FloatStyle) (full : Bool) (precision : Nat) (x : Float) : List Char :=
  match Binary.ofFloat x with
  | .nan => ['n', 'a', 'n']
  | .infinite negative => (if negative then ['-'] else []) ++ ['i', 'n', 'f']
  | .finite negative m q =>
    let magnitude :=
      match style with
      | .places => pointed full precision (Nat.toDigits 10 (scaled m q precision))
      | .exponent =>
        let (digits, exponent) := roundedDigits m q (precision + 1)
        withExponent full digits exponent
      | .general => generalChars full precision m q
    (if negative then ['-'] else []) ++ magnitude

end Stencil.Number
