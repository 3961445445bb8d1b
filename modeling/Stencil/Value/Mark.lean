import Stencil.Text.Location

/-!
# Marks

Two equal values need not be one and the same. What can be told apart from its equals carries a
mark, and equal values are one exactly if their marks agree. A value that is just made is `fresh`:
nothing else can refer to it yet, so it is one with nothing. It gets a number as soon as it can be
referred to twice.
-/

namespace Stencil

/-- What tells a value apart from its equals. -/
inductive Mark where
  /-- Nothing else refers to the value yet. -/
  | fresh
  /-- The value with this number. -/
  | made (id : Nat)
  /-- A constant of the expression at a place. Equal constants of an expression are one. -/
  | written (place : Option Location)
  /-- A constant that looks like a name. Equal names are one, wherever they are written. -/
  | named
  /-- A text out of a fixed stock, such as a single character. -/
  | stock
deriving DecidableEq, Repr, Inhabited

namespace Mark

/-- Whether equal values with these marks are one. -/
def agrees : Mark → Mark → Bool
  | .made a, .made b => a == b
  | .written p, .written q => p == q
  | .named, .named => true
  | .stock, .stock => true
  | _, _ => false

/-- Whether a value has just been made. -/
def isFresh : Mark → Bool
  | .fresh => true
  | _ => false

/-- Whether a text is a single character of the first 256, which are in stock. -/
def isStocked (text : String) : Bool :=
  match text.toList with
  | [c] => c.toNat < 256
  | _ => false

/-- The mark of a text that was cut out of another. -/
def ofPiece (text : String) : Mark :=
  if isStocked text then .stock else .fresh

/-- Whether a character can stand in a name of ASCII. -/
def isNameChar (c : Char) : Bool :=
  ('a' ≤ c && c ≤ 'z') || ('A' ≤ c && c ≤ 'Z') || ('0' ≤ c && c ≤ '9') || c == '_'

/-- The single characters that are names before they are in stock. -/
def singleNames : List Char := "BCLST_abcdefhijklmnopqrstvwxy".toList

/-- The mark of a text that is a constant of the expression at a place. -/
def ofConstant (place : Option Location) (text : String) : Mark :=
  match text.toList with
  | [c] =>
    if singleNames.contains c then .named else if c.toNat < 256 then .stock else .written place
  | chars => if chars.all isNameChar then .named else .written place

/-- The mark of a float that is a constant of the expression at a place. What is not a number is one
with nothing. -/
def ofFloat (place : Option Location) (x : Float) : Mark :=
  if x == x then .written place else .fresh

theorem agrees_self {m : Mark} (h : m.isFresh = false) : m.agrees m = true := by
  cases m <;> simp_all [agrees, isFresh]

end Mark

end Stencil
