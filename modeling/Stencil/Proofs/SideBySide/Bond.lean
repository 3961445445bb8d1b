import Stencil.Render.Run
import Stencil.Proofs.Steps
import Mathlib.Data.List.Forall2

/-!
# Renders side by side

Two renders are compared by running them side by side. A `Bond` says what their worlds have in
common all the time: everything but the buffers and the children of components is the same, and
these two are related as the bond says. The buffers may be related in another way inside a render
than outside of it, so a bond has levels.

`Agree` is the relation of two computations that this gives: from worlds that are tied they come to
the same result and to worlds that are tied again. Where the first one fails and the bond is not
`strict` about its fault, what becomes of the second one is left open.

This file has the relation and its rules for the steps that renders are made of.
-/

namespace Stencil

/-- Two results of the same kind: values that are related, or one and the same fault. -/
inductive Matched {α β : Type} (R : α → β → Prop) : Except Fault α → Except Fault β → Prop
  | ok {a : α} {b : β} (h : R a b) : Matched R (.ok a) (.ok b)
  | error (e : Fault) : Matched R (.error e) (.error e)

/-- What two renders that go side by side have in common. -/
structure Bond (ι : Type) where
  /-- The level of a render inside another. -/
  inner : ι → ι
  /-- The level of a render to a buffer of its own. -/
  fresh : ι
  /-- How the buffers are related at a level. -/
  buffers : ι → Buffer → Buffer → Prop
  /-- Which children may stand for which. -/
  bodies : Body → Body → Prop
  /-- Children that the first render finds in their places all the time. -/
  kept : List Body := []
  /-- Which faults on one side have to be faults on the other. -/
  strict : Fault → Prop
  append : ∀ {i b b'} (text : String), buffers i b b' →
    Matched (buffers i) (b.append text) (b'.append text)
  contents : ∀ {i b b'}, buffers i b b' →
    Matched (fun p q => p.1 = q.1 ∧ buffers i p.2 q.2) b.contents b'.contents
  enter : ∀ {i b b'}, buffers i b b' → buffers (inner i) b.enter b'.enter
  leave : ∀ {i b b'}, buffers (inner i) b b' → buffers i b.leave b'.leave
  empty : buffers fresh {} {}
  bodies_refl : ∀ b, bodies b b

variable {ι α β : Type}

/-- Two worlds that are alike up to their buffers and the children of components. -/
structure World.Tied (B : Bond ι) (i : ι) (w w' : World) : Prop where
  buffer : B.buffers i w.buffer w'.buffer
  bodies : List.Forall₂ B.bodies w.bodies.toList w'.bodies.toList
  kept : B.kept <+: w.bodies.toList
  cursors : w.cursors = w'.cursors
  frames : w.frames = w'.frames
  nextId : w.nextId = w'.nextId
  registry : w.registry = w'.registry

namespace Bond

/-- The outcome of a computation is matched by another outcome. -/
def Follows (B : Bond ι) (i : ι) : Except Fault α × World → Except Fault α × World → Prop
  | (.ok x, w), o => o.1 = .ok x ∧ w.Tied B i o.2
  | (.error e, w), o => B.strict e → o.1 = .error e ∧ w.Tied B i o.2

/-- From worlds that are tied, the outcome of a computation is matched by that of another. -/
def Agree (B : Bond ι) (i : ι) (m m' : Render α) : Prop :=
  ∀ ⦃w w' : World⦄, w.Tied B i w' → B.Follows i (m w) (m' w')

variable {B : Bond ι} {i : ι}

/-! ## Outcomes -/

theorem Follows.same {r : Except Fault α} {w w' : World} (h : w.Tied B i w') :
    B.Follows i (r, w) (r, w') := by
  cases r with
  | ok x => exact ⟨rfl, h⟩
  | error e => exact fun _ => ⟨rfl, h⟩

/-- What is done to the worlds after the computation keeps outcomes matched, if it keeps worlds
tied. -/
theorem Follows.map {j : ι} {o o' : Except Fault α × World} (h : B.Follows i o o')
    (f f' : World → World) (hf : ∀ {v v'}, World.Tied B i v v' → (f v).Tied B j (f' v')) :
    B.Follows j (o.1, f o.2) (o'.1, f' o'.2) := by
  obtain ⟨r, v⟩ := o
  cases r with
  | ok x => exact ⟨h.1, hf h.2⟩
  | error e => exact fun hs => ⟨(h hs).1, hf (h hs).2⟩

/-! ## Control -/

protected theorem Agree.pure (a : α) : B.Agree i (Pure.pure a) (Pure.pure a) := fun _ _ h => ⟨rfl, h⟩

protected theorem Agree.throw (e : Fault) : B.Agree i (throw e : Render α) (throw e) :=
  fun _ _ h _ => ⟨rfl, h⟩

protected theorem Agree.result (r : Except Fault α) : B.Agree i (Render.result r) (Render.result r) := by
  cases r with
  | ok a => exact Agree.pure a
  | error e => exact Agree.throw e

protected theorem Agree.bind {m m' : Render α} {f f' : α → Render β} (h : B.Agree i m m')
    (hf : ∀ a, B.Agree i (f a) (f' a)) : B.Agree i (m >>= f) (m' >>= f') := by
  intro w w' hw
  have hm := h hw
  rw [Render.bind_apply, Render.bind_apply]
  rcases hr : m w with ⟨e | a, v⟩
  · rw [hr] at hm
    intro hs
    rcases hr' : m' w' with ⟨r', v'⟩
    obtain ⟨h₁, h₂⟩ := hr' ▸ hm hs
    subst h₁
    exact ⟨rfl, h₂⟩
  · rw [hr] at hm
    rcases hr' : m' w' with ⟨r', v'⟩
    obtain ⟨h₁, h₂⟩ := hr' ▸ hm
    subst h₁
    exact hf a h₂

protected theorem Agree.map {m m' : Render α} (h : B.Agree i m m') (f : α → β) :
    B.Agree i (do return f (← m)) (do return f (← m')) :=
  h.bind fun a => Agree.pure (f a)

theorem Agree.ite (c : Bool) {m m' n n' : Render α} (hm : B.Agree i m m') (hn : B.Agree i n n') :
    B.Agree i (if c then m else n) (if c then m' else n') := by
  cases c
  · exact hn
  · exact hm

theorem Agree.mapM {f f' : α → Render β} (h : ∀ a, B.Agree i (f a) (f' a)) :
    ∀ l : List α, B.Agree i (l.mapM f) (l.mapM f')
  | [] => by simpa using Agree.pure []
  | a :: l => by
    rw [List.mapM_cons, List.mapM_cons]
    exact (h a).bind fun _ => (Agree.mapM h l).bind fun _ => Agree.pure _

/-- A computation that looks at the world first. -/
protected theorem Agree.get {f f' : World → Render α}
    (h : ∀ {w w'}, World.Tied B i w w' → B.Agree i (f w) (f' w')) :
    B.Agree i (get >>= f) (get >>= f') :=
  fun _ _ hw => h hw hw

/-- A handler that goes on failing: what it does before that must not fail by itself. -/
theorem Agree.cleanUp {m m' : Render α} (h : B.Agree i m m') {after : Render Unit}
    (ha : B.Agree i after after) (hok : ∀ w, (after w).1 = .ok ()) :
    B.Agree i (tryCatch m fun e => do after; throw e) (tryCatch m' fun e => do after; throw e) := by
  intro w w' hw
  have hm := h hw
  rw [Render.tryCatch_apply, Render.tryCatch_apply]
  rcases hr : m w with ⟨e | a, v⟩
  · rw [hr] at hm
    show B.Follows i ((after >>= fun _ => throw e : Render α) v) _
    rw [Render.bind_apply]
    rcases hafter : after v with ⟨r, u⟩
    -- so the fault that is thrown on is that of the computation
    obtain rfl : r = .ok () := by rw [← hok v, hafter]
    intro hs
    rcases hr' : m' w' with ⟨r', v'⟩
    obtain ⟨h₁, h₂⟩ := hr' ▸ hm hs
    subst h₁
    have hfollows := (ha.bind fun _ => Agree.throw (α := α) e) h₂
    rw [Render.bind_apply, hafter] at hfollows
    exact hfollows hs
  · rw [hr] at hm
    rcases hr' : m' w' with ⟨r', v'⟩
    obtain ⟨h₁, h₂⟩ := hr' ▸ hm
    subst h₁
    exact ⟨rfl, h₂⟩

/-! ## The buffer -/

protected theorem Agree.append (text : String) : B.Agree i (Render.append text) (Render.append text) := by
  intro w w' hw
  have hm := B.append text hw.buffer
  rw [Render.append_apply, Render.append_apply]
  generalize w.buffer.append text = r, w'.buffer.append text = r' at hm
  cases hm with
  | ok h => exact ⟨rfl, { hw with buffer := h }⟩
  | error e => exact fun _ => ⟨rfl, hw⟩

protected theorem Agree.contents : B.Agree i Render.contents Render.contents := by
  intro w w' hw
  have hm := B.contents hw.buffer
  rw [Render.contents_apply, Render.contents_apply]
  generalize w.buffer.contents = r, w'.buffer.contents = r' at hm
  cases hm with
  | ok h => exact ⟨congrArg Except.ok h.1.symm, { hw with buffer := h.2 }⟩
  | error e => exact fun _ => ⟨rfl, hw⟩

protected theorem Agree.within {m m' : Render α} (h : B.Agree (B.inner i) m m') :
    B.Agree i (Render.within m) (Render.within m') := by
  intro w w' hw
  have start : World.Tied B (B.inner i) { w with buffer := w.buffer.enter }
      { w' with buffer := w'.buffer.enter } := { hw with buffer := B.enter hw.buffer }
  exact (h start).map (fun v => { v with buffer := v.buffer.leave })
    (fun v => { v with buffer := v.buffer.leave }) fun hv =>
      { hv with buffer := B.leave hv.buffer }

protected theorem Agree.onFreshBuffer {m m' : Render Unit} (h : B.Agree B.fresh m m') :
    B.Agree i (Render.onFreshBuffer m) (Render.onFreshBuffer m') := by
  intro w w' hw
  have start : World.Tied B B.fresh { w with buffer := {} } { w' with buffer := {} } :=
    { hw with buffer := B.empty }
  exact ((h.bind fun _ => Agree.contents) start).map (fun v => { v with buffer := w.buffer })
    (fun v => { v with buffer := w'.buffer }) fun hv => { hv with buffer := hw.buffer }

/-! ## The store -/

protected theorem Agree.settle (v : Value) : B.Agree i (Render.settle v) (Render.settle v) := by
  intro w w' hw
  show B.Follows i (_, _) (_, _)
  rw [← hw.nextId]
  exact ⟨rfl, { hw with nextId := rfl }⟩

protected theorem Agree.settleAll (values : List Value) :
    B.Agree i (Render.settleAll values) (Render.settleAll values) := by
  intro w w' hw
  show B.Follows i (_, _) (_, _)
  rw [← hw.nextId]
  exact ⟨rfl, { hw with nextId := rfl }⟩

protected theorem Agree.newIterator (kind : IteratorKind) (cursor : Cursor) :
    B.Agree i (Render.newIterator kind cursor) (Render.newIterator kind cursor) := by
  intro w w' hw
  show B.Follows i (_, _) (_, _)
  rw [← hw.cursors]
  exact ⟨rfl, { hw with cursors := rfl }⟩

protected theorem Agree.store (id : Nat) (cursor : Cursor) :
    B.Agree i (Render.store id cursor) (Render.store id cursor) := by
  intro w w' hw
  exact ⟨rfl, { hw with cursors := congrArg (·.setIfInBounds id cursor) hw.cursors }⟩

protected theorem Agree.newFrame (names : List String) :
    B.Agree i (Render.newFrame names) (Render.newFrame names) := by
  intro w w' hw
  show B.Follows i (_, _) (_, _)
  rw [← hw.frames]
  exact ⟨rfl, { hw with frames := rfl }⟩

protected theorem Agree.assign (frame : Nat) (name : String) (v : Value) :
    B.Agree i (Render.assign frame name v) (Render.assign frame name v) :=
  (Agree.settle v).bind fun v _ _ hw =>
    ⟨rfl, { hw with frames := congrArg (·.modify frame (Arguments.insert name v ·)) hw.frames }⟩

protected theorem Agree.setRegistry {w w' : World} (h : w.Tied B i w') (r : Schema.Registry) :
    B.Agree i (set { w with registry := r }) (set { w' with registry := r }) :=
  fun _ _ _ => ⟨rfl, { h with registry := rfl }⟩

/-- Children may be replaced by others where the bond says so: the deferred render has the same
number on both sides. -/
protected theorem Agree.newBody {plan plan' : Plan} {scope : Scope}
    (h : B.bodies ⟨plan, scope⟩ ⟨plan', scope⟩) :
    B.Agree i (Render.newBody plan scope) (Render.newBody plan' scope) := by
  intro w w' hw
  have hsize : w.bodies.size = w'.bodies.size := by simpa using hw.bodies.length_eq
  show B.Follows i (_, _) (_, _)
  rw [← hsize]
  refine ⟨rfl, { hw with bodies := ?_, kept := ?_ }⟩
  · simpa using List.rel_append hw.bodies (.cons h .nil)
  · exact hw.kept.trans (by simp)

end Bond

end Stencil
