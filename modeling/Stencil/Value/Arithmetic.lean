import Stencil.Value.Format

/-!
# Arithmetic

Integers have no bounds. An operation on an integer and a float is done on floats, division of
integers too. Strings, lists and tuples can be joined by `+` and repeated by `*`; `%` fills a format
with arguments. An operation that has nothing to do gives its operand back.
-/

namespace Stencil

open Number

namespace Quantity

/-- A quantity as a new value. -/
def toValue : Quantity → Value
  | .int n => .ofInt n
  | .float x => .ofFloat x

/-- An operation that is done on floats if one side is one. -/
def combine (onInts : Int → Int → Int) (onFloats : Float → Float → Float) :
    Quantity → Quantity → Except Fault Quantity
  | .int n, .int k => .ok (.int (onInts n k))
  | p, q => do return .float (onFloats (← p.toFloat) (← q.toFloat))

/-- True division. -/
def divide : Quantity → Quantity → Except Fault Quantity
  | .int n, .int k =>
    if k == 0 then .error .divisionByZero
    else
      match divideInts? n k with
      | some x => .ok (.float x)
      | none => .error .overflow
  | p, q => do
    let x ← p.toFloat
    let y ← q.toFloat
    if y == 0 then throw .divisionByZero
    return .float (x / y)

/-- The quotient rounded down and the remainder with the sign of the divisor. -/
def floorDivide : Quantity → Quantity → Except Fault (Quantity × Quantity)
  | .int n, .int k =>
    if k == 0 then .error .divisionByZero else .ok (.int (n.fdiv k), .int (n.fmod k))
  | p, q => do
    let x ← p.toFloat
    let y ← q.toFloat
    if y == 0 then throw .divisionByZero
    let (quotient, rest) := floorDivMod x y
    return (.float quotient, .float rest)

/-- An arithmetic operator on two numbers. -/
def apply (op : BinaryOp) (p q : Quantity) : Except Fault Quantity :=
  match op with
  | .add => combine (· + ·) (· + ·) p q
  | .sub => combine (· - ·) (· - ·) p q
  | .mul => combine (· * ·) (· * ·) p q
  | .div => divide p q
  | .floorDiv => do return (← floorDivide p q).1
  | .mod => do return (← floorDivide p q).2

end Quantity

namespace Value

/-- Two sequences of one kind, one after the other. -/
def concatenate : Value → Value → Except Fault Value
  | .list _ as, .list _ bs => .ok (.ofList (as ++ bs))
  | .tuple m as, .tuple n bs =>
    if as.isEmpty then .ok (.tuple n bs)
    else if bs.isEmpty then .ok (.tuple m as)
    else .ok (.ofTuple (as ++ bs))
  | a, b =>
    match a.string?, b.string? with
    | some s, some t =>
      if s.isEmpty then .ok b.plainString
      else if t.isEmpty then .ok a.plainString
      else .ok (.ofString (s ++ t))
    | _, _ => .error .wrongType

/-- Items over and over. -/
def repeated {α : Type} (count : Int) (items : List α) : List α :=
  if items.isEmpty then [] else (List.replicate count.toNat items).flatten

/-- Fail if a sequence of so many items, taken so often, is too long. -/
def checkRepeats (count : Int) (length : Nat) : Except Fault Unit :=
  if lengthLimit ≤ count || count < -lengthLimit then .error .overflow
  else if memoryLimit ≤ count * length then .error .outOfMemory
  else .ok ()

/-- A sequence over and over. A string or a tuple that is taken once stays the same. -/
def replicate (count : Int) (v : Value) : Except Fault Value :=
  match v with
  | .list _ items => do
    checkRepeats count items.length
    return .ofList (repeated count items)
  | .tuple m items => do
    checkRepeats count items.length
    return .tuple (if count == 1 then m else .fresh) (repeated count items)
  | v =>
    match v.string? with
    | some s => do
      if lengthLimit ≤ count * s.length then throw .overflow
      checkRepeats count s.length
      if count == 1 then return v.plainString
      return .ofString (String.ofList (repeated count s.toList))
    | Option.none => .error .wrongType

/-- An arithmetic operator on two values that are not both numbers. -/
def applyToSequences (op : BinaryOp) (a b : Value) : Except Fault Value :=
  match op with
  | .add => concatenate a b
  | .mul =>
    match a.integer?, b.integer? with
    | some n, _ => replicate n b
    | _, some n => replicate n a
    | _, _ => .error .wrongType
  | .mod =>
    match a.string? with
    | some s => format a s.toList b
    | Option.none => .error .wrongType
  | _ => .error .wrongType

/-- An arithmetic operator. -/
def binary (op : BinaryOp) (a b : Value) : Except Fault Value :=
  match a.quantity?, b.quantity? with
  | some p, some q => do return (← Quantity.apply op p q).toValue
  | _, _ => applyToSequences op a b

/-- A number as one that has no kind of its own. A number that is so already stays the same. -/
def plainNumber (v : Value) : Except Fault Value :=
  match v with
  | .int m n => .ok (.int m n)
  | .float m x => .ok (.float m x)
  | v =>
    match v.quantity? with
    | some q => .ok q.toValue
    | Option.none => .error .wrongType

/-- An operator with one operand. -/
def unary (op : UnaryOp) (v : Value) : Except Fault Value :=
  match op, v.quantity? with
  | .not, _ => .ok (.bool !v.truth)
  | .plus, _ => v.plainNumber
  | .minus, some (.int n) => .ok (.ofInt (-n))
  | .minus, some (.float x) => .ok (.ofFloat (-x))
  | .minus, Option.none => .error .wrongType

/-- The magnitude of a number. -/
def magnitude (v : Value) : Except Fault Value :=
  match v.quantity? with
  | some (.int n) => if 0 ≤ n then v.plainNumber else .ok (.ofInt (-n))
  | some (.float x) => .ok (.ofFloat x.abs)
  | Option.none => .error .wrongType

/-! ## Constants that are computed

A term without names has one value for all times, so its value is a constant of the expression like
any literal. Results that would be large are left to be computed each time.
-/

/-- A value as a constant of the expression at a place. What it holds is constant already. -/
def asConstant (place : Option Location) : Value → Value
  | .int .fresh n => .int (.written place) n
  | .float .fresh x => .float (.ofFloat place x) x
  | .str _ s => .str (.ofConstant place s) s
  | .tuple .fresh items => .tuple (.written place) items
  | v => v

/-- The number of binary digits of an integer. -/
def bitLength (n : Int) : Nat :=
  if n == 0 then 0 else n.natAbs.log2 + 1

/-- Whether a sequence is taken so often only that the result is small. -/
def isSmallRepeat (count : Int) (v : Value) : Bool :=
  match v with
  | .str _ s => s.isEmpty || (0 ≤ count && count * s.length ≤ 4096)
  | .tuple _ items => items.isEmpty || (0 ≤ count && count * items.length ≤ 256)
  | _ => true

/-- Whether the result of an operator on two constants is a constant. -/
def isFolded (op : BinaryOp) (a b : Value) : Bool :=
  match op, a.integer?, b.integer? with
  | .mul, some n, some k => n == 0 || k == 0 || bitLength n + bitLength k ≤ 128
  | .mul, some n, Option.none => isSmallRepeat n b
  | .mul, Option.none, some k => isSmallRepeat k a
  | .mod, _, _ => a.string?.isNone
  | _, _, _ => true

end Value

end Stencil
