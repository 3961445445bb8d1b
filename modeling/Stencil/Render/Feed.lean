import Stencil.Render.World

/-!
# Taking values one by one

A feed gives its values one after the other. Containers are gone through afresh each time;
iterators are used up, by whoever takes from them. How an iterator comes by its next value is left
to the runner. Every loop over an iterator has a bound, which no run through one comes near.
-/

namespace Stencil

/-- Where the values of a value come from. -/
def Feed.of? (v : Value) : Except Fault Feed :=
  match v with
  | .iterator _ id => .ok (.iterator id)
  | .range _ start stop step => .ok (.count start step (Value.rangeCount start stop step))
  | v =>
    match v.contents? with
    | some held => .ok (.items held)
    | none => .error .wrongType

namespace Render

/-- A bound on the number of values that are taken from an iterator in a row. -/
def pullLimit : Nat := 1000000000000000000

variable (run : Runner)

/-- The next value of a feed, and the feed after it. -/
def pull (feed : Feed) : Render (Option (Value × Feed)) :=
  match feed with
  | .items [] => pure none
  | .items (v :: rest) => pure (some (v, .items rest))
  | .count _ _ 0 => pure none
  | .count n step (left + 1) => pure (some (.ofInt n, .count (n + step) step left))
  | .iterator id => do return (← run.next id).map fun v => (v, feed)

/-! ## Going through a feed -/

/-- Go through values, carrying a result along. -/
def foldItems {β : Type} (step : β → Value → Render β) : β → List Value → Render β
  | acc, [] => pure acc
  | acc, v :: rest => do foldItems step (← step acc v) rest

/-- Go through so many integers, carrying a result along. -/
def foldCount {β : Type} (step : β → Value → Render β) (by_ : Int) : Nat → Int → β → Render β
  | 0, _, acc => pure acc
  | left + 1, n, acc => do foldCount step by_ left (n + by_) (← step acc (.ofInt n))

/-- Go through an iterator for at most so many values, carrying a result along. -/
def foldPulls {β : Type} (step : β → Value → Render β) (id : Nat) : Nat → β → Render β
  | 0, acc => pure acc
  | n + 1, acc => do
    match ← run.next id with
    | none => return acc
    | some v => foldPulls step id n (← step acc v)

/-- Go through a feed, carrying a result along. -/
def foldFeed {β : Type} (step : β → Value → Render β) (acc : β) (feed : Feed) : Render β :=
  match feed with
  | .items items => foldItems step acc items
  | .count n by_ left => foldCount step by_ left n acc
  | .iterator id => foldPulls run step id pullLimit acc

/-- Go through a value, carrying a result along. -/
def fold {β : Type} (step : β → Value → Render β) (acc : β) (v : Value) : Render β := do
  foldFeed run step acc (← result (Feed.of? v))

/-- Take values from a feed until something comes of one, but at most so many. -/
def findPull {β : Type} (step : Value → Render (Option β)) :
    Nat → Feed → Render (Option (β × Feed))
  | 0, _ => pure none
  | n + 1, feed => do
    match ← pull run feed with
    | none => return none
    | some (v, feed) =>
      match ← step v with
      | some x => return some (x, feed)
      | none => findPull step n feed

/-! ## Taking many at once -/

/-- Fail if there is no room for everything that a value has to give. -/
def checkRoom (v : Value) : Except Fault Unit :=
  match v with
  | .range _ start stop step =>
    let n := Value.rangeCount start stop step
    if Value.lengthLimit ≤ n then .error .overflow
    else if Value.memoryLimit ≤ n then .error .outOfMemory
    else .ok ()
  | _ => .ok ()

/-- Everything that a value has to give. -/
def drain (v : Value) : Render (List Value) := do
  result (checkRoom v)
  return (← fold run (fun acc v => pure (v :: acc)) [] v).reverse

/-- The first so many values of a feed, and the feed after them; `none` if there are fewer. -/
def takeFeed : Nat → Feed → Render (Option (List Value × Feed))
  | 0, feed => pure (some ([], feed))
  | n + 1, feed => do
    match ← pull run feed with
    | none => return none
    | some (v, feed) => do return (← takeFeed n feed).map fun (vs, feed) => (v :: vs, feed)

/-- The values of a value that has to have exactly so many. One more is asked for. -/
def unpack (count : Nat) (v : Value) : Render (List Value) := do
  match ← takeFeed run count (← result (Feed.of? v)) with
  | none => throw .wrongValue
  | some (values, feed) =>
    match ← pull run feed with
    | none => return values
    | some _ => throw .wrongValue

/-! ## Iterators that draw on others -/

/-- One value of each feed, as far as there is one. What was taken stays taken: the iterator is put
back after each value. -/
def pullEach (id : Nat) (before : List Feed) : List Feed → Render (Option (List Value))
  | [] => pure (some [])
  | feed :: rest => do
    match ← pull run feed with
    | none => return none
    | some (v, feed) =>
      store id (.zipped (before ++ feed :: rest))
      return (← pullEach id (before ++ [feed]) rest).map (v :: ·)

/-- The next value of an iterator with a cursor that is not a comprehension. -/
def advance (id : Nat) (cursor : Cursor) : Render (Option Value) := do
  match cursor with
  | .plain feed =>
    match ← pull run feed with
    | none => return none
    | some (v, feed) =>
      store id (.plain feed)
      return some v
  | .numbered n feed =>
    match ← pull run feed with
    | none => return none
    | some (v, feed) =>
      store id (.numbered (n + 1) feed)
      return some (.ofTuple [.ofInt n, v])
  | .zipped [] => return none
  | .zipped feeds => return (← pullEach run id [] feeds).map .ofTuple
  | _ => return none

end Render

end Stencil
