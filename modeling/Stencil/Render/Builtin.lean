import Stencil.Number.Read
import Stencil.Render.Feed
import Stencil.Value.Arithmetic

/-!
# Built-in functions

The functions that every expression can call. They take their arguments by place, and a few of them
by name. Values are taken one by one where the result needs no more of them at once.
-/

namespace Stencil

open Number

namespace Value

/-! ## Sorting -/

/-- The values at the start of a list, each less than the one before it or none of them, and the
other values. -/
def splitRun (falling : Bool) (last : Value) :
    List Value → Except Fault (List Value × List Value)
  | [] => .ok ([], [])
  | v :: rest => do
    if (← ordered .lt v last) == falling then
      let (run, others) ← splitRun falling v rest
      return (v :: run, others)
    else return ([], v :: rest)

/-- The place of a value among sorted ones between two bounds, found by halving: behind the values
that it is not less than. The first argument bounds the number of steps. -/
def searchPlace (v : Value) (sorted : Array Value) : Nat → Nat → Nat → Except Fault Nat
  | 0, low, _ => .ok low
  | n + 1, low, high =>
    let middle := (low + high) / 2
    match if low < high then sorted[middle]? else Option.none with
    | Option.none => .ok low
    | some w => do
      if ← ordered .lt v w then searchPlace v sorted n low middle
      else searchPlace v sorted n (middle + 1) high

/-- Put a value among sorted ones, behind those that it is not less than. -/
def insertSorted (sorted : Array Value) (v : Value) : Except Fault (Array Value) := do
  let place ← searchPlace v sorted sorted.size 0 sorted.size
  return sorted.insertIdxIfInBounds place v

/-- The values in order; equal ones stay as they are. A start that is in order, or in the opposite
one, is taken as a whole; the other values are put in one by one. -/
def sort : List Value → Except Fault (List Value)
  | a :: b :: rest => do
    let falling ← ordered .lt b a
    let (run, others) ← splitRun falling b rest
    let run := a :: b :: run
    let start := if falling then run.reverse else run
    return (← others.foldlM insertSorted start.toArray).toList
  | values => .ok values

/-! ## Conversions -/

/-- The integer of a value that has to be one. -/
def integer (v : Value) : Except Fault Int :=
  match v.integer? with
  | some n => .ok n
  | Option.none => .error .wrongType

/-- The integer that a text spells in a base. -/
def readInteger (base : Nat) (text : String) : Except Fault Value :=
  match readInt? base text.toList with
  | some n => .ok (.ofInt n)
  | Option.none => .error .wrongValue

/-- The integer that a value is converted to. -/
def toInteger (v : Value) : Except Fault Value :=
  match v.quantity?, v.string? with
  | some (.int _), _ => v.plainNumber
  | some q, _ => do return .ofInt (← q.truncated)
  | _, some s => readInteger 10 s
  | _, _ => .error .wrongType

/-- The integer that a text spells in a given base: zero, or one from 2 to 36. -/
def toIntegerIn (v base : Value) : Except Fault Value := do
  let base ← base.integer
  if base != 0 && (base < 2 || 36 < base) then throw .wrongValue
  match v.string? with
  | some s => readInteger base.toNat s
  | Option.none => throw .wrongType

/-- The float that a value is converted to. -/
def toFloating (v : Value) : Except Fault Value :=
  match v, v.quantity?, v.string? with
  | .float m x, _, _ => .ok (.float m x)
  | _, some q, _ => do return .ofFloat (← q.toFloat)
  | _, _, some s =>
    match readFloat? s.toList with
    | some x => .ok (.ofFloat x)
    | Option.none => .error .wrongValue
  | _, _, _ => .error .wrongType

/-- The number of things that a container holds, if it can be counted. -/
def count (v : Value) : Except Fault Value :=
  match v.length? with
  | some n => if lengthLimit ≤ n then .error .overflow else .ok (.ofInt n)
  | Option.none => .error .wrongType

/-- The range of integers that arguments ask for. -/
def rangeOf : List Value → Except Fault Value
  | [stop] => do return .range .fresh 0 (← integer stop) 1
  | [start, stop] => do return .range .fresh (← integer start) (← integer stop) 1
  | [start, stop, step] => do
    let step' ← integer step
    let start' ← integer start
    let stop' ← integer stop
    if step' = 0 then throw .wrongValue
    return .range .fresh start' stop' step'
  | _ => .error .wrongType

end Value

namespace Render

variable (run : Runner)

/-- What a sum starts with. Numbers are summed up in a new one, unless they are too great. -/
def sumStart : Value → Value
  | .int m n =>
    if -Value.lengthLimit ≤ n && n < Value.lengthLimit then .ofInt n else .int m n
  | .float _ x => .ofFloat x
  | v => v

/-- The sum of what a value has to give. -/
def sum (v start : Value) : Render Value := do
  let feed ← result (Feed.of? v)
  match start.string? with
  | some _ => throw .wrongType
  | none => foldFeed run (fun acc item => result (Value.binary .add acc item)) (sumStart start) feed

/-- The better of two values, where the first one is kept in doubt. -/
def better (op : CompareOp) (best : Option Value) (v : Value) : Render (Option Value) := do
  match best with
  | none => return some v
  | some b => if ← result (Value.ordered op v b) then return some v else return some b

/-- The least or the greatest of the arguments, or of what a single argument has to give. -/
def extreme (op : CompareOp) (arguments : List Value) : Render Value := do
  let best ←
    match arguments with
    | [] => throw .wrongType
    | [v] => fold run (better op) none v
    | values => foldItems (better op) none values
  match best with
  | none => throw .wrongValue
  | some v => return v

/-- An iterator that numbers what a value has to give. -/
def numbered (v : Value) (first : Int) : Render Value := do
  newIterator .numbered (.numbered first (← result (Feed.of? v)))

end Render

namespace Builtin

/-- Whether the name is one that says how bytes are read. -/
def isReading (name : String) : Bool :=
  name == "encoding" || name == "errors"

/-- Arguments that are all given by place, or all by name, in their places. How bytes are read does
not matter where there are none. -/
def inPlace (f : Builtin) (given : List Value) (named : Arguments) : Except Fault (List Value) :=
  match f, given, named with
  | _, given, [] => .ok given
  | .str, [], [("object", v)] => .ok [v]
  | .str, [], named =>
    if named.all fun (name, v) => isReading name && v.string?.isSome then .ok []
    else .error .wrongType
  | .enumerate, [], [("iterable", v)] => .ok [v]
  | .enumerate, [], [("iterable", v), ("start", first)] => .ok [v, first]
  | .enumerate, [], [("start", first), ("iterable", v)] => .ok [v, first]
  | .zip, [], [("strict", _)] => .ok []
  | _, _, _ => .error .wrongType

/-- The result of a built-in function. -/
def call (run : Runner) (f : Builtin) (arguments : List Value) : Render Value :=
  match f, arguments with
  | .len, [v] => Render.result v.count
  | .str, [] => pure (.ofString "")
  | .str, [v] => Render.result v.toText
  | .repr, [.bool b] => Render.result (Value.bool b).toText
  | .repr, [v] => do return .ofString (← Render.result v.shown)
  | .bool, [] => pure (.bool false)
  | .bool, [v] => pure (.bool v.truth)
  | .int, [] => pure (.ofInt 0)
  | .int, [v] => Render.result v.toInteger
  | .int, [v, base] => Render.result (v.toIntegerIn base)
  | .float, [] => pure (.ofFloat 0)
  | .float, [v] => Render.result v.toFloating
  | .abs, [v] => Render.result v.magnitude
  | .range, arguments => Render.result (Value.rangeOf arguments)
  | .list, [] => pure (.ofList [])
  | .list, [v] => do return .ofList (← Render.drain run v)
  | .set, [] => pure (.set .fresh [])
  | .set, [v] => do Render.result (v.toSet (← Render.drain run v))
  | .sorted, [v] => do return .ofList (← Render.result (Value.sort (← Render.drain run v)))
  | .sum, [v] => Render.sum run v (.ofInt 0)
  | .sum, [v, start] => Render.sum run v start
  | .min, arguments => Render.extreme run .lt arguments
  | .max, arguments => Render.extreme run .gt arguments
  | .enumerate, [v] => Render.numbered v 0
  | .enumerate, [v, start] => do Render.numbered v (← Render.result start.integer)
  | .zip, arguments => do
    let feeds ← Render.result (arguments.mapM Feed.of?)
    Render.newIterator .zipped (.zipped feeds)
  | _, _ => throw .wrongType

end Builtin

end Stencil
