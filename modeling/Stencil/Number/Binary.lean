/-!
# Binary floating point, exactly

A finite float is `m * 2 ^ q` with a sign. `Binary.ofFloat` takes the bits apart and `nearest` goes
the other way: it rounds a quotient of natural numbers to the nearest float, a tie to the even
mantissa. All arithmetic is on natural numbers.
-/

namespace Stencil.Number

/-- Two to a power. -/
abbrev twoTo (n : Nat) : Nat := Nat.pow 2 n

/-- Ten to a power. -/
abbrev tenTo (n : Nat) : Nat := Nat.pow 10 n

/-- What the bits of a float stand for. -/
inductive Binary where
  | nan
  | infinite (negative : Bool)
  /-- The value `m * 2 ^ q`, negated if `negative`. -/
  | finite (negative : Bool) (m : Nat) (q : Int)

/-- The parts of a float. -/
def Binary.ofFloat (x : Float) : Binary :=
  let bits := x.toBits.toNat
  let negative := bits / twoTo 63 == 1
  let exponent := bits / twoTo 52 % twoTo 11
  let fraction := bits % twoTo 52
  if exponent == 2047 then
    if fraction == 0 then .infinite negative else .nan
  else if exponent == 0 then .finite negative fraction (-1074)
  else .finite negative (fraction + twoTo 52) (Int.ofNat exponent - 1075)

/-- Two to a power, as the pair of a numerator and a denominator. -/
def powerOfTwo (q : Int) : Nat × Nat :=
  (twoTo q.toNat, twoTo (-q).toNat)

/-- Ten to a power, as the pair of a numerator and a denominator. -/
def powerOfTen (e : Int) : Nat × Nat :=
  (tenTo e.toNat, tenTo (-e).toNat)

/-- The natural number nearest to a quotient; a tie goes to the even one. -/
def roundQuotient (num den : Nat) : Nat :=
  let whole := num / den
  let rest := num % den
  if 2 * rest < den then whole
  else if den < 2 * rest then whole + 1
  else whole + whole % 2

/-- The float with the given sign bit and remaining bits. -/
def withSign (negative : Bool) (bits : Nat) : Float :=
  Float.ofBits (UInt64.ofNat (if negative then twoTo 63 + bits else bits))

/-- The float that stands for infinity. -/
def infinity (negative : Bool) : Float :=
  withSign negative (2047 * twoTo 52)

/-- The float nearest to `num / den`, with a sign. -/
def nearest (negative : Bool) (num den : Nat) : Float :=
  if num == 0 then withSign negative 0
  else
    -- the quotient at this exponent has 53 or 54 bits, or fewer near zero
    let guess := max (Int.ofNat num.log2 - Int.ofNat den.log2 - 53) (-1074)
    let quotient := fun (q : Int) => (num * twoTo (-q).toNat, den * twoTo q.toNat)
    let q :=
      let (n, d) := quotient guess
      if twoTo 53 ≤ n / d then guess + 1 else guess
    let (n, d) := quotient q
    let rounded := roundQuotient n d
    -- rounding up may reach the next power of two
    let (m, q) := if rounded == twoTo 53 then (twoTo 52, q + 1) else (rounded, q)
    if 971 < q then infinity negative
    else if m < twoTo 52 then withSign negative m
    else withSign negative ((q + 1075).toNat * twoTo 52 + (m - twoTo 52))

/-- The float nearest to an integer; `none` if the integer is beyond all floats. -/
def ofInt? (n : Int) : Option Float :=
  let x := nearest (n < 0) n.natAbs 1
  match Binary.ofFloat x with
  | .finite .. => some x
  | _ => none

/-- The integer part of a float; `none` if it is not finite. -/
def truncate? (x : Float) : Option Int :=
  match Binary.ofFloat x with
  | .finite negative m q =>
    let (num, den) := powerOfTwo q
    let magnitude := Int.ofNat (m * num / den)
    some (if negative then -magnitude else magnitude)
  | _ => none

/-- Order of an integer and a float; `none` if the float is not a number. -/
def compareInt (n : Int) (x : Float) : Option Ordering :=
  match Binary.ofFloat x with
  | .nan => none
  | .infinite negative => some (if negative then .gt else .lt)
  | .finite negative m q =>
    let (num, den) := powerOfTwo q
    let value := Int.ofNat (m * num)
    some (compare (n * Int.ofNat den) (if negative then -value else value))

/-- Order of two floats; `none` if one of them is not a number. -/
def compareFloat (x y : Float) : Option Ordering :=
  if x == y then some .eq else if x < y then some .lt else if y < x then some .gt else none

/-- The sign bit. -/
def isNegative (x : Float) : Bool :=
  x.toBits.toNat / twoTo 63 == 1

/-- The remainder of the division that truncates, which is always exact. -/
def remainder (x y : Float) : Float :=
  match Binary.ofFloat x, Binary.ofFloat y with
  | .finite negative m q, .finite _ n r =>
    if n == 0 then 0 / 0
    else
      let low := min q r
      let rest := (m * twoTo (q - low).toNat) % (n * twoTo (r - low).toNat)
      let (num, den) := powerOfTwo low
      nearest negative (rest * num) den
  | .finite .., .infinite _ => x
  | _, _ => 0 / 0

/-- Quotient rounded down and the remainder that has the sign of the divisor, for a divisor other
than zero. -/
def floorDivMod (x y : Float) : Float × Float :=
  let rest := remainder x y
  let quotient := (x - rest) / y
  let (rest, quotient) :=
    if rest != 0 then
      if (y < 0) != (rest < 0) then (rest + y, quotient - 1) else (rest, quotient)
    else (withSign (isNegative y) 0, quotient)
  if quotient != 0 then
    -- the division was rounded, so the quotient may be just below the integer that it is
    let whole := quotient.floor
    (if quotient - whole > 0.5 then whole + 1 else whole, rest)
  else (withSign (isNegative (x / y)) 0, rest)

/-- The float nearest to a quotient of integers, for a divisor other than zero; `none` if the
quotient is beyond all floats. -/
def divideInts? (n d : Int) : Option Float :=
  let x := nearest ((n < 0) != (d < 0)) n.natAbs d.natAbs
  match Binary.ofFloat x with
  | .finite .. => some x
  | _ => none

/-- The float nearest to `mantissa * 10 ^ exponent`. Exponents far beyond the range of floats are
cut down to ones that give the same float. -/
def ofDecimal (negative : Bool) (mantissa : Nat) (exponent : Int) : Float :=
  let size := Int.ofNat (mantissa.log2 / 3 + 1)
  if mantissa == 0 || exponent < -(size + 400) then withSign negative 0
  else
    let (num, den) := powerOfTen (min exponent 400)
    nearest negative (mantissa * num) den

end Stencil.Number
