import Stencil.Value.Compare

/-!
# Dicts and sets

A dict is the list of its entries in the order in which the keys came in. Keys are compared by
value, so `1`, `1.0` and `True` are one key. A set is the list of its elements, each there once.
-/

namespace Stencil.Value

/-- The value under a key. -/
def find? (key : Value) : List (Value × Value) → Option Value
  | [] => Option.none
  | (k, v) :: rest => if k.alike key then some v else find? key rest

/-- Entries with one more: a key that is present keeps its place and gets the new value. -/
def insertEntry (key value : Value) : List (Value × Value) → List (Value × Value)
  | [] => [(key, value)]
  | (k, v) :: rest =>
    if k.alike key then (k, value) :: rest else (k, v) :: insertEntry key value rest

/-- The dict with the given entries, written in this order. -/
def ofEntries (entries : List (Value × Value)) : Except Fault Value :=
  if entries.all fun (k, _) => k.isKey then
    .ok (.dict .fresh (entries.foldl (fun done (k, v) => insertEntry k v done) []))
  else .error .wrongType

/-- Whether a value is among others. -/
def isAmong (v : Value) (others : List Value) : Bool :=
  others.any fun other => other.alike v

/-- Values without those that came before. -/
def distinct : List Value → List Value → List Value
  | _, [] => []
  | seen, v :: rest =>
    if v.isAmong seen then distinct seen rest else v :: distinct (v :: seen) rest

/-! ## The order of a set -/

/-- The least number of slots above a bound, when slots are doubled. The first argument bounds the
number of steps. -/
def slotsAbove : Nat → Nat → Nat → Nat
  | 0, _, slots => slots
  | n + 1, bound, slots => if slots ≤ bound then slotsAbove n bound (2 * slots) else slots

/-- The slots of a table after more elements have come in one by one: when three fifths are taken,
there are to be four slots for every element. -/
def grownSlots : Nat → Nat → Nat → Nat
  | 0, _, slots => slots
  | more + 1, taken, slots =>
    let taken := taken + 1
    grownSlots more taken
      (if 3 * (slots - 1) ≤ 5 * taken then slotsAbove (4 * taken) (4 * taken) 8 else slots)

/-- The slot that an integer belongs in. -/
def slotOf (slots : Nat) (n : Int) : Int :=
  let rest := n.tmod 2305843009213693951
  (if rest = -1 then -2 else rest) % slots

/-- Elements as they stand in a table of so many slots: integers by their slots. Of anything else
there is no order to rely on, and it stays as it came. -/
def arranged (slots : Nat) (items : List Value) : List Value :=
  match items.mapM integer? with
  | some numbers =>
    let placed := (numbers.map (slotOf slots)).zip items
    (placed.mergeSort fun a b => a.1 ≤ b.1).map Prod.snd
  | Option.none => items

/-- The slots of a table for so many elements that come in all at once, as those of a dict or of a
set do. There are more than twice as many from the start. -/
def slotsAtOnce (n : Nat) : Nat :=
  if n < 5 then 8 else slotsAbove (2 * n) (2 * n) 8

/-- The slots of the table for the elements of a value that others are taken away from. -/
def slotsFor (source : Value) (items : List Value) : Nat :=
  match source with
  | .view _ .keys _ | .set .. => slotsAtOnce items.length
  | _ => grownSlots items.length 0 8

/-- The set of the items of a value. All of them have to be keys. -/
def toSet (source : Value) (items : List Value) : Except Fault Value :=
  if areKeys items then
    let items := distinct [] items
    let slots :=
      match source with
      | .dict .. | .set .. => slotsAtOnce items.length
      | _ => grownSlots items.length 0 8
    .ok (.set .fresh (arranged slots items))
  else .error .wrongType

/-- The set of the items of a value that are not among others. All of them have to be keys. -/
def difference (source : Value) (items others : List Value) : Except Fault Value :=
  if areKeys items && areKeys others then
    let items := distinct [] items
    let left := items.filter fun v => !v.isAmong others
    .ok (.set .fresh (arranged (slotsFor source items) left))
  else .error .wrongType

end Stencil.Value
