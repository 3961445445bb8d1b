import Stencil.Render.Buffer
import Stencil.Render.Env
import Stencil.Value.Sequence

/-!
# Renders

A render runs against a world: the buffer it writes to and the store of what values refer to, that
is, one-shot iterators, the frames of comprehensions and the children of components. What was
written, and what was taken from an iterator, stays so when the render fails.
-/

namespace Stencil

open Schema

/-- Where values come from, one after the other. -/
inductive Feed where
  /-- A container: what is left of it. -/
  | items (rest : List Value)
  /-- A range: its next integer, the step, and how many there are. -/
  | count (next step : Int) (left : Nat)
  /-- A one-shot iterator in the store. -/
  | iterator (id : Nat)

/-- What is left of a one-shot iterator. -/
inductive Cursor where
  | plain (feed : Feed)
  /-- Pairs of a number and a value. -/
  | numbered (next : Int) (feed : Feed)
  /-- Tuples with one value of each feed. -/
  | zipped (feeds : List Feed)
  /-- The items of a comprehension, from where its loops stand. -/
  | suspended (item : Term) (clauses : List Clause) (env : Env) (loops : List Feed)
  /-- A comprehension whose next item is being evaluated. -/
  | running
  /-- A comprehension that has ended or failed. -/
  | finished

/-- The children of a component: their plan, and the scope that it is run in. -/
structure Body where
  plan : Plan
  scope : Scope

/-- The state of a render. -/
structure World where
  buffer : Buffer := {}
  /-- What is left of every iterator, by its number. -/
  cursors : Array Cursor := #[]
  /-- The values of the names of every comprehension, by the number of its frame. -/
  frames : Array (List (String × Value)) := #[]
  /-- The children that components were given, by their number. -/
  bodies : Array Body := #[]
  /-- The number of the next value that is settled. -/
  nextId : Nat := 0
  /-- The registry that templates are checked against when they are made during a render. -/
  registry : Registry := .builtin

/-- A computation that reads and writes a world and may fail. -/
abbrev Render := ExceptT Fault (StateM World)

/-- What a render leaves to be done for it. -/
structure Runner where
  /-- Carry out a deferred render on the buffer. -/
  perform : Deferred → Render Unit
  /-- The next value of an iterator. -/
  next : Nat → Render (Option Value)
  /-- The result of a call, with arguments by place and by name. -/
  apply : Value → List Value → Arguments → Render Value

namespace Render

/-- The result of a step that does not use the world. -/
def result {α : Type} : Except Fault α → Render α
  | .ok x => pure x
  | .error e => throw e

/-- Append a text to the buffer as it is. -/
def append (text : String) : Render Unit := do
  let w ← get
  match w.buffer.append text with
  | .ok buffer => set { w with buffer := buffer }
  | .error e => throw e

/-- The text of the buffer. -/
def contents : Render String := do
  let w ← get
  match w.buffer.contents with
  | .ok (text, buffer) =>
    set { w with buffer := buffer }
    return text
  | .error e => throw e

/-- A change of the buffer. -/
def change (f : Buffer → Buffer) : Render Unit :=
  modify fun w => { w with buffer := f w.buffer }

/-- End a render that was begun by hand. There has to be one in progress. -/
def leave : Render Unit := do
  if (← get).buffer.depth == 0 then throw .outOfRange
  change Buffer.leave

/-- A render into the buffer: it is in progress until the action ends, whether it fails or not. -/
def within {α : Type} (action : Render α) : Render α := fun w =>
  let (result, w) := action { w with buffer := w.buffer.enter }
  (result, { w with buffer := w.buffer.leave })

/-- The text that an action writes to a buffer of its own. -/
def onFreshBuffer (action : Render Unit) : Render String := fun w =>
  let (result, w') := (do action; contents : Render String) { w with buffer := {} }
  (result, { w' with buffer := w.buffer })

/-! ## The store -/

/-- A value that can be referred to from now on. -/
def settle (v : Value) : Render Value := fun w =>
  let (v, id) := v.settle w.nextId
  (.ok v, { w with nextId := id })

/-- Values that can be referred to from now on. -/
def settleAll (values : List Value) : Render (List Value) := fun w =>
  let (values, id) := Value.settleAll values w.nextId
  (.ok values, { w with nextId := id })

/-- A new one-shot iterator. -/
def newIterator (kind : IteratorKind) (cursor : Cursor) : Render Value := fun w =>
  (.ok (.iterator kind w.cursors.size), { w with cursors := w.cursors.push cursor })

/-- Put back what is left of an iterator. -/
def store (id : Nat) (cursor : Cursor) : Render Unit :=
  modify fun w => { w with cursors := w.cursors.setIfInBounds id cursor }

/-- The deferred render of the children of a component. -/
def newBody (plan : Plan) (scope : Scope) : Render Value := fun w =>
  (.ok (.lazy .fresh (.children w.bodies.size)), { w with bodies := w.bodies.push ⟨plan, scope⟩ })

/-- A new frame for names that have no values yet. -/
def newFrame (names : List String) : Render Frame := fun w =>
  (.ok ⟨names, w.frames.size⟩, { w with frames := w.frames.push [] })

/-- Give a name of a frame a value. -/
def assign (frame : Nat) (name : String) (v : Value) : Render Unit := do
  let v ← settle v
  modify fun w => { w with frames := w.frames.modify frame (Arguments.insert name v ·) }

end Render

end Stencil
