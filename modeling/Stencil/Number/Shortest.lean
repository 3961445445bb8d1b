import Stencil.Number.Binary

/-!
# The shortest decimal that reads back

Among the decimals that round to a given float, the one with the fewest digits is written, and of
those the nearest. For each number of digits from one to seventeen there are two candidates, the
neighbours of the value on that decimal grid; the first grid with a candidate inside the interval
of reals that round to the float wins.

How the digits are laid out is a record of its own: positional notation for exponents from -4 to
15, always with a point, and otherwise a signed exponent of at least two digits.
-/

namespace Stencil.Number

/-! ## Digits -/

/-- The exponent `k` with `10 ^ k ≤ num / den < 10 ^ (k + 1)`, for a positive quotient. -/
def decimalExponent (num den : Nat) : Int :=
  if den ≤ num then Int.ofNat (Nat.toDigits 10 (num / den)).length - 1
  else
    let places := (Nat.toDigits 10 (den / num)).length - 1
    if den ≤ num * tenTo places then -Int.ofNat places else -Int.ofNat (places + 1)

/-- The best candidate for `m * 2 ^ q` on the grid of multiples of `10 ^ scale`, if one of the two
neighbours rounds to the float. -/
def candidate? (m : Nat) (q scale : Int) : Option Nat :=
  let up := twoTo q.toNat * tenTo (-scale).toNat
  let down := twoTo (-q).toNat * tenTo scale.toNat
  -- right below a power of two the floats lie twice as dense
  let below := if m == twoTo 52 && q != -1074 then 1 else 2
  -- a tie goes to the even mantissa, so the ends of its interval belong to it
  let inside := fun (c : Nat) =>
    if m % 2 == 0 then (4 * m - below) * up ≤ 4 * c * down && 4 * c * down ≤ (4 * m + 2) * up
    else (4 * m - below) * up < 4 * c * down && 4 * c * down < (4 * m + 2) * up
  let low := m * up / down
  let nearer := roundQuotient (m * up) down
  if inside nearer then some nearer
  else if inside low then some low
  else if inside (low + 1) then some (low + 1)
  else none

/-- Digits without the zeros that end them. -/
def dropTrailingZeros (digits : List Char) : List Char :=
  (digits.reverse.dropWhile (· == '0')).reverse

/-- The digits of the shortest decimal for `m * 2 ^ q`, and the exponent of the first digit. -/
def shortestDigits (m : Nat) (q : Int) : List Char × Int :=
  let (num, den) := powerOfTwo q
  let exponent := decimalExponent (m * num) den
  let hit := ((List.range 17).map fun n => exponent - Int.ofNat n).findSome? fun scale =>
    (candidate? m q scale).map fun c => (c, scale)
  match hit with
  | none => (['0'], 0)
  | some (c, scale) =>
    let digits := Nat.toDigits 10 c
    (dropTrailingZeros digits, scale + Int.ofNat digits.length - 1)

/-! ## Layout -/

/-- Choices of a notation for floats. -/
structure Layout where
  /-- The least exponent that is written positionally. -/
  positionalFrom : Int
  /-- The least exponent above those that are written positionally. -/
  positionalBelow : Int
  /-- The least number of digits of an exponent. -/
  exponentWidth : Nat

/-- Exponents from -4 to 15 are written positionally, others with at least two digits. -/
def layout : Layout := ⟨-4, 16, 2⟩

/-- Zeros in front, up to a width. -/
def padZeros (width : Nat) (digits : List Char) : List Char :=
  List.replicate (width - digits.length) '0' ++ digits

/-- Positional notation, with at least one digit on each side of the point. -/
def positional (digits : List Char) (exponent : Int) : List Char :=
  if exponent < 0 then
    '0' :: '.' :: List.replicate (-exponent - 1).toNat '0' ++ digits
  else
    let whole := exponent.toNat + 1
    let padded := digits ++ List.replicate (whole - digits.length) '0'
    let fraction := padded.drop whole
    padded.take whole ++ '.' :: (if fraction.isEmpty then ['0'] else fraction)

/-- Notation with an exponent. -/
def scientific (width : Nat) (digits : List Char) (exponent : Int) : List Char :=
  let fraction := digits.drop 1
  digits.take 1 ++ (if fraction.isEmpty then [] else '.' :: fraction) ++
    'e' :: (if exponent < 0 then '-' else '+') ::
    padZeros width (Nat.toDigits 10 exponent.natAbs)

/-- A magnitude in the notation of a layout. -/
def layOut (l : Layout) (digits : List Char) (exponent : Int) : List Char :=
  if l.positionalFrom ≤ exponent && exponent < l.positionalBelow then positional digits exponent
  else scientific l.exponentWidth digits exponent

/-- The text of a float. -/
def floatChars (x : Float) : List Char :=
  match Binary.ofFloat x with
  | .nan => ['n', 'a', 'n']
  | .infinite negative => (if negative then ['-'] else []) ++ ['i', 'n', 'f']
  | .finite negative m q =>
    let magnitude :=
      if m == 0 then ['0', '.', '0']
      else
        let (digits, exponent) := shortestDigits m q
        layOut layout digits exponent
    (if negative then ['-'] else []) ++ magnitude

/-- The text of a float, as a string. -/
def floatText (x : Float) : String :=
  String.ofList (floatChars x)

/-- The text of an integer in a base up to sixteen. -/
def intChars (base : Nat) (n : Int) : List Char :=
  (if n < 0 then ['-'] else []) ++ Nat.toDigits base n.natAbs

/-- The text of an integer. -/
def intText (n : Int) : String :=
  String.ofList (intChars 10 n)

end Stencil.Number
