import Stencil.Number.Binary
import Stencil.Render.Fault
import Stencil.Text.Shown
import Stencil.Value.Identity

/-!
# Comparing values

Numbers are compared by value, whatever their kind; strings by their characters; lists, tuples and
dicts by what they hold, where a value is always like itself. Numbers, strings, lists and tuples
have an order, and sets are ordered by what they hold.
-/

namespace Stencil

open Number

/-- An integer or a float. -/
inductive Quantity where
  | int (n : Int)
  | float (x : Float)

namespace Quantity

/-- Order by value; `none` if one side is not a number. -/
def compare : Quantity → Quantity → Option Ordering
  | .int n, .int k => some (Ord.compare n k)
  | .int n, .float x => compareInt n x
  | .float x, .int n => (compareInt n x).map Ordering.swap
  | .float x, .float y => compareFloat x y

/-- A quantity as a float. -/
def toFloat : Quantity → Except Fault Float
  | .float x => .ok x
  | .int n =>
    match ofInt? n with
    | some x => .ok x
    | none => .error .overflow

/-- The integer that a quantity comes to without its fraction. -/
def truncated : Quantity → Except Fault Int
  | .int n => .ok n
  | .float x =>
    match truncate? x with
    | some n => .ok n
    | none => .error (if x != x then .wrongValue else .overflow)

/-- Whether a quantity is other than zero. -/
def isNonzero : Quantity → Bool
  | .int n => n != 0
  | .float x => x != 0

end Quantity

namespace Value

/-- The quantity of a value that is a number, truth values included. -/
def quantity? : Value → Option Quantity
  | .bool b => some (.int (if b then 1 else 0))
  | .int _ n => some (.int n)
  | .float _ x => some (.float x)
  | .derived _ (.int n) _ => some (.int n)
  | .derived _ (.float x) _ => some (.float x)
  | _ => Option.none

/-- The number of integers in a range. -/
def rangeCount (start stop step : Int) : Nat :=
  if 0 < step then ((stop - start + step - 1) / step).toNat
  else if step < 0 then ((start - stop - step - 1) / -step).toNat
  else 0

/-- Whether the value counts as true: everything but `None`, `False`, zeros and what is empty. -/
def truth : Value → Bool
  | .none => false
  | .bool b => b
  | .int _ n => n != 0
  | .float _ x => x != 0
  | .str _ s => !s.isEmpty
  | .rendered _ s => !s.isEmpty
  | .list _ items => !items.isEmpty
  | .tuple _ items => !items.isEmpty
  | .dict _ entries => !entries.isEmpty
  | .view _ _ entries => !entries.isEmpty
  | .set _ items => !items.isEmpty
  | .range _ start stop step => rangeCount start stop step != 0
  | .derived _ (.int n) _ => n != 0
  | .derived _ (.float x) _ => x != 0
  | .derived _ (.str s) _ => !s.isEmpty
  | _ => true

/-! ## Equality -/

/-- Whether two numbers are equal. -/
def equalQuantities (a b : Value) : Bool :=
  match a.quantity?, b.quantity? with
  | some p, some q => p.compare q == some .eq
  | _, _ => false

/-- Whether two strings are equal. -/
def equalStrings (a b : Value) : Bool :=
  match a.string?, b.string? with
  | some s, some t => s == t
  | _, _ => false

/-- Whether two ranges hold the same integers. -/
def equalRanges (start stop step start' stop' step' : Int) : Bool :=
  let n := rangeCount start stop step
  n == rangeCount start' stop' step' && (n == 0 || (start == start' && (n == 1 || step == step')))

/-- The elements of a value that is a set: a view of keys or of items, or what is left of one. -/
def elements? : Value → Option (List Value)
  | .view _ .keys entries => some (entries.map fun entry => entry.1)
  | .view _ .items entries => some (entries.map fun entry => .ofTuple [entry.1, entry.2])
  | .set _ items => some items
  | _ => Option.none

/-- The two items of a pair. -/
def pair? : Value → Option (Value × Value)
  | .tuple _ [a, b] => some (a, b)
  | _ => Option.none

/-- Whether a value is a set that passes a test, and has so many elements. -/
def isSetOf (size : Nat) (test : List Value → Bool) (v : Value) : Bool :=
  match v.elements? with
  | some others => others.length == size && test others
  | Option.none => false

mutual

/-- Whether two values are equal. -/
def equal : Value → Value → Bool
  | .none, .none => true
  | .list _ as, .list _ bs => equalItems as bs
  | .tuple _ as, .tuple _ bs => equalItems as bs
  | .dict _ as, .dict _ bs => as.length == bs.length && coveredBy as bs
  | .view _ .items as, b => isSetOf as.length (pairsAmong as) b
  | .view _ .keys as, b => isSetOf as.length (keysAmong as) b
  | .set _ as, b => isSetOf as.length (allAmong as) b
  | .range _ a b c, .range _ d e f => equalRanges a b c d e f
  | .raw _ _ a, .raw _ _ b => a == b
  | .record _ a _ fields _, .record _ b _ fields' _ => a == b && equalFields fields fields'
  | .method _ a f, .method _ b g => f == g && identical a b
  | a, b =>
    if a.quantity?.isSome then equalQuantities a b else equalStrings a b || identical a b

/-- Whether two lists are equal item by item. An item is always equal to itself. -/
def equalItems : List Value → List Value → Bool
  | [], [] => true
  | a :: as, b :: bs => (identical a b || equal a b) && equalItems as bs
  | _, _ => false

/-- Whether two records of one label have equal fields. -/
def equalFields : List (String × Value) → List (String × Value) → Bool
  | [], [] => true
  | (_, v) :: rest, (_, w) :: others => equal v w && equalFields rest others
  | _, _ => false

/-- Whether every entry has an equal one among others. -/
def coveredBy : List (Value × Value) → List (Value × Value) → Bool
  | [], _ => true
  | (k, v) :: rest, others =>
    (others.any fun entry =>
        (identical k entry.1 || equal k entry.1) && (identical v entry.2 || equal v entry.2)) &&
      coveredBy rest others

/-- Whether every entry is, as a pair, among some values. -/
def pairsAmong : List (Value × Value) → List Value → Bool
  | [], _ => true
  | (k, v) :: rest, others =>
    (others.any fun other =>
        match other.pair? with
        | some (l, w) => (identical k l || equal k l) && (identical v w || equal v w)
        | Option.none => false) &&
      pairsAmong rest others

/-- Whether every key is among some values. -/
def keysAmong : List (Value × Value) → List Value → Bool
  | [], _ => true
  | (k, _) :: rest, others =>
    (others.any fun other => identical k other || equal k other) && keysAmong rest others

/-- Whether every value is among others. -/
def allAmong : List Value → List Value → Bool
  | [], _ => true
  | v :: rest, others =>
    (others.any fun other => identical v other || equal v other) && allAmong rest others

end

/-- Whether two values are one, or equal: items of containers and keys are told apart by this. -/
def alike (a b : Value) : Bool :=
  identical a b || equal a b

/-! ## Elements of sets -/

/-- What a value is looked up by in a set: pairs by their first items. No pair of a dict is
anything else, and no element is a set. -/
def lookupKey? (set v : Value) : Option Value :=
  match set, v with
  | .view _ .items _, v => v.pair?.map Prod.fst
  | .set .., .set .. => Option.none
  | _, v => some v

/-- Whether a value is an element of a set. What it is looked up by has to be a key. -/
def hasElement (set v : Value) : Except Fault Bool :=
  match lookupKey? set v with
  | Option.none => .ok false
  | some key =>
    if key.isKey then .ok ((set.elements?.getD []).any fun other => other.alike v)
    else .error .wrongType

/-- Whether all values are elements of a set. The first that is not decides. -/
def areElements (set : Value) : List Value → Except Fault Bool
  | [] => .ok true
  | v :: rest => do
    if ← set.hasElement v then areElements set rest else return false

/-- Whether two values are equal, where sets are equal if they have the same elements. What is left
of a view is looked through for the elements of a view. -/
def equality (a b : Value) : Except Fault Bool :=
  match a, a.elements?, b.elements? with
  | .set .., some as, some bs =>
    if as.length == bs.length then areElements a bs else .ok false
  | _, some as, some bs =>
    if as.length == bs.length then areElements b as else .ok false
  | _, _, _ => .ok (a.equal b)

/-! ## Order -/

/-- Whether an operator of order accepts the result of a comparison. -/
def accepts : CompareOp → Ordering → Bool
  | .lt, o => o == .lt
  | .le, o => o != .gt
  | .gt, o => o == .gt
  | .ge, o => o != .lt
  | _, _ => false

/-- Whether one set stands in an order to another: the lesser is a part of the greater. -/
def orderedSets (op : CompareOp) (a b : Value) (as bs : List Value) : Except Fault Bool :=
  if accepts op (Ord.compare as.length bs.length) then
    match op with
    | .lt | .le => areElements b as
    | _ => areElements a bs
  else .ok false

mutual

/-- Whether one value stands in an order to another. -/
def ordered (op : CompareOp) : Value → Value → Except Fault Bool
  | .list _ as, .list _ bs => orderedItems op as bs
  | .tuple _ as, .tuple _ bs => orderedItems op as bs
  | a, b =>
    match a.quantity?, b.quantity?, a.string?, b.string?, a.elements?, b.elements? with
    | some p, some q, _, _, _, _ => .ok (((p.compare q).map (accepts op)).getD false)
    | _, _, some s, some t, _, _ => .ok (accepts op (Text.compareTexts s t))
    | _, _, _, _, some as, some bs => orderedSets op a b as bs
    | _, _, _, _, _, _ => .error .wrongType

/-- Whether one list stands in an order to another: by the first item that differs, and by length
if there is none. -/
def orderedItems (op : CompareOp) : List Value → List Value → Except Fault Bool
  | a :: as, b :: bs => if alike a b then orderedItems op as bs else ordered op a b
  | as, bs => .ok (accepts op (Ord.compare as.length bs.length))

end

end Value

end Stencil
