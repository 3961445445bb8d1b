import Stencil.Value.Entries

/-!
# Sequences

Strings, lists, tuples and ranges are taken apart by places, which may be counted from the end.
-/

namespace Stencil.Value

/-- The least number that is too great to count the items of a sequence. -/
def lengthLimit : Int := 9223372036854775808

/-- The number of items that no memory has room for. -/
def memoryLimit : Int := 68719476736

/-- The characters of a string, each as a string. -/
def characters (s : String) : List Value :=
  s.toList.map fun c => .ofPiece (String.singleton c)

/-- Whether an integer is in a range. -/
def inRange (start stop step n : Int) : Bool :=
  if 0 < step then start ≤ n && n < stop && (n - start) % step == 0
  else if step < 0 then n ≤ start && stop < n && (start - n) % -step == 0
  else false

/-- The items of a view. -/
def viewItems (kind : ViewKind) (entries : List (Value × Value)) : List Value :=
  match kind with
  | .keys => entries.map Prod.fst
  | .values => entries.map Prod.snd
  | .items => entries.map fun (k, v) => .ofTuple [k, v]

/-- What a value holds, in order, if it is a container that holds its items itself. -/
def contents? : Value → Option (List Value)
  | .list _ items => some items
  | .tuple _ items => some items
  | .dict _ entries => some (entries.map Prod.fst)
  | .view _ shape entries => some (viewItems shape entries)
  | .set _ items => some items
  | v => v.string?.map characters

/-- The number of things that a container holds. -/
def length? : Value → Option Nat
  | .list _ items => some items.length
  | .tuple _ items => some items.length
  | .dict _ entries => some entries.length
  | .view _ _ entries => some entries.length
  | .set _ items => some items.length
  | .range _ start stop step => some (rangeCount start stop step)
  | v => v.string?.map String.length

/-! ## Places -/

/-- The place of an index in a sequence; one below zero is counted from the end. -/
def placeOf? (length : Nat) (index : Int) : Option Nat :=
  let place := if index < 0 then index + length else index
  if 0 ≤ place && place < length then some place.toNat else Option.none

/-- The place that a bound of a slice comes to. -/
def boundOf (length : Nat) (bound : Int) : Nat :=
  let place := if bound < 0 then bound + length else bound
  min place.toNat length

/-- The items between two places. -/
def between {α : Type} (low high : Nat) (items : List α) : List α :=
  (items.take high).drop low

/-- The item of a sequence at an index. An index too great to count with has no place. -/
def itemAt {α : Type} (items : List α) (index : Int) : Except Fault α :=
  match (placeOf? items.length index).bind fun place => items[place]? with
  | some item => .ok item
  | Option.none => .error .outOfRange

/-- The value at a key: an entry of a dict or an item of a sequence. -/
def valueAt (subject key : Value) : Except Fault Value :=
  match subject with
  | .dict _ entries =>
    if key.isKey then
      match find? key entries with
      | some v => .ok v
      | Option.none => .error .unknownKey
    else .error .wrongType
  | .view .. => .error .wrongType
  | .set .. => .error .wrongType
  | .range _ start stop step =>
    match key.integer? with
    | some index =>
      match placeOf? (rangeCount start stop step) index with
      | some place => .ok (.ofInt (start + place * step))
      | Option.none => .error .outOfRange
    | Option.none => .error .wrongType
  | _ =>
    match subject.contents?, key.integer? with
    | some items, some index => itemAt items index
    | _, _ => .error .wrongType

/-- The bound that a value stands for; `None` stands for the end of the sequence. -/
def bound (length other : Nat) (v : Value) : Except Fault Nat :=
  match v with
  | .none => .ok other
  | v =>
    match v.integer? with
    | some n => .ok (boundOf length n)
    | Option.none => .error .wrongType

/-- The number of items of a value that a part can be cut out of. -/
def cutLength (subject : Value) : Except Fault Nat :=
  match subject with
  | .dict .. | .view .. | .set .. => .error .wrongType
  | subject =>
    match subject.length? with
    | some n => .ok n
    | Option.none => .error .wrongType

/-- The part of a sequence between two places. A string or a tuple that is taken as a whole stays
the same. -/
def cut (subject : Value) (low high : Nat) (whole : Bool) : Except Fault Value :=
  match subject with
  | .list _ items => .ok (.ofList (between low high items))
  | .tuple m items => .ok (.tuple (if whole then m else .fresh) (between low high items))
  | .range _ start _ step => .ok (.range .fresh (start + low * step) (start + high * step) step)
  | subject =>
    match subject.string? with
    | some s =>
      if whole then .ok subject.plainString
      else .ok (.ofPiece (String.ofList (between low high s.toList)))
    | Option.none => .error .wrongType

/-- The part of a sequence between two bounds. -/
def slice (subject low high : Value) : Except Fault Value := do
  let length ← subject.cutLength
  let low ← bound length 0 low
  let high ← bound length length high
  cut subject low high (low == 0 && high == length)

end Stencil.Value
