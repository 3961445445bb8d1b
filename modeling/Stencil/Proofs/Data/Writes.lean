import Stencil.Proofs.Data.Functions
import Stencil.Proofs.Markup.Spelling
import Stencil.Proofs.Steps
import Stencil.Render.Run

/-!
# Renders of data

A world is one of data if the iterators and the frames that were made since some moment hold
nothing but data: `k` is the number of the first iterator, `f` that of the first frame. What was
there before may be anything, and data do not lead to it.

`Writes` says what a computation does in such a world, if it succeeds: which texts it may append to
the buffer and what its result is like. `Quiet` computations append nothing. This file has the rules
for the steps that renders are made of.
-/

namespace Stencil

/-- Whether a feed gives data. -/
def Feed.IsData (k : Nat) : Feed → Prop
  | .items rest => AreData k rest
  | .count .. => True
  | .iterator id => k ≤ id

theorem Feed.isData_empty {k : Nat} : (Feed.items []).IsData k := AreData.nil

/-- The names of an environment have data as values. -/
structure Env.IsData (k f : Nat) (env : Env) : Prop where
  context : ScopeData k env.context
  frames : ∀ frame ∈ env.frames, f ≤ frame.id

/-- Whether an iterator gives data. -/
def Cursor.IsData (k f : Nat) : Cursor → Prop
  | .plain feed => feed.IsData k
  | .numbered _ feed => feed.IsData k
  | .zipped feeds => ∀ feed ∈ feeds, feed.IsData k
  | .suspended _ _ env loops => env.IsData k f ∧ ∀ feed ∈ loops, feed.IsData k
  | .running => True
  | .finished => True

/-- A world in which all that is new holds data. -/
structure World.IsData (k f : Nat) (w : World) : Prop where
  cursors : ∀ {id cursor}, k ≤ id → w.cursors[id]? = some cursor → cursor.IsData k f
  frames : ∀ {id values}, f ≤ id → w.frames[id]? = some values → ScopeData k values
  oldCursors : k ≤ w.cursors.size
  oldFrames : f ≤ w.frames.size

/-- A language that has the empty text and whatever is made of its texts. -/
structure Chained (L : String → Prop) : Prop where
  empty : L ""
  append : ∀ {s t}, L s → L t → L (s ++ t)

theorem Chained.nothing : Chained (· = "") :=
  ⟨rfl, by rintro _ _ rfl rfl; rfl⟩

theorem Chained.repeated (L : String → Prop) : Chained (Repeated L) where
  empty := .done
  append hs ht := by
    induction hs with
    | done => simpa using ht
    | more hfirst _ ih =>
      rw [String.append_assoc]
      exact .more hfirst ih

namespace Render

variable {α β : Type} {k f : Nat}

/-- If the computation succeeds in a world of data, it appends a text of the language, its result is
as described, and the world is one of data afterwards. -/
def Writes (k f : Nat) (L : String → Prop) (Q : α → Prop) (m : Render α) : Prop :=
  ∀ ⦃w a v⦄, w.IsData k f → m w = (.ok a, v) →
    Q a ∧ v.IsData k f ∧ ∃ text, L text ∧ v.buffer.text = w.buffer.text ++ text

/-- A computation that appends nothing. -/
abbrev Quiet (k f : Nat) (Q : α → Prop) (m : Render α) : Prop :=
  Writes k f (· = "") Q m

variable {L M : String → Prop} {P Q : α → Prop} {R : β → Prop} {m : Render α} {g : α → Render β}

/-! ## Control -/

protected theorem Writes.pure (hL : L "") {a : α} (h : Q a) : Writes k f L Q (Pure.pure a) := by
  rintro w _ _ hw ⟨⟩
  exact ⟨h, hw, "", hL, String.append_empty.symm⟩

protected theorem Quiet.pure {a : α} (h : Q a) : Quiet k f Q (Pure.pure a) :=
  Writes.pure (L := (· = "")) rfl h

protected theorem Writes.throw (e : Fault) : Writes k f L Q (throw e : Render α) :=
  fun _ _ _ _ h => nomatch h

protected theorem Writes.mono (h : Writes k f L Q m) (hL : ∀ text, L text → M text) :
    Writes k f M Q m := by
  intro w a v hw hm
  obtain ⟨ha, hv, text, htext, hgrown⟩ := h hw hm
  exact ⟨ha, hv, text, hL text htext, hgrown⟩

protected theorem Writes.bind (hm : Writes k f L Q m) (hg : ∀ a, Q a → Writes k f M R (g a)) :
    Writes k f (fun text => ∃ s t, L s ∧ M t ∧ text = s ++ t) R (m >>= g) := by
  intro w b v hw h
  rw [bind_apply] at h
  split at h
  · next a u hu =>
    obtain ⟨ha, hu, s, hs, hgrown⟩ := hm hw hu
    obtain ⟨hb, hv, t, ht, hmore⟩ := hg a ha hu h
    refine ⟨hb, hv, s ++ t, ⟨s, t, hs, ht, rfl⟩, ?_⟩
    rw [hmore, hgrown, String.append_assoc]
  · cases h

/-- Two steps write a text each of a language that they can be chained in. -/
protected theorem Writes.chain (hL : Chained L) (hm : Writes k f L Q m)
    (hg : ∀ a, Q a → Writes k f L R (g a)) : Writes k f L R (m >>= g) := by
  refine (hm.bind hg).mono ?_
  rintro _ ⟨s, t, hs, ht, rfl⟩
  exact hL.append hs ht

/-- What a quiet step precedes writes all of the text. -/
protected theorem Writes.then (hm : Quiet k f Q m) (hg : ∀ a, Q a → Writes k f L R (g a)) :
    Writes k f L R (m >>= g) := by
  refine (hm.bind hg).mono ?_
  rintro _ ⟨s, t, rfl, ht, rfl⟩
  simpa using ht

protected theorem Writes.map {g : α → β} (hm : Writes k f L Q m) (h : ∀ a, Q a → R (g a)) :
    Writes k f L R (do return g (← m)) := by
  refine (hm.bind fun a ha => Quiet.pure (h a ha)).mono ?_
  rintro _ ⟨s, t, hs, rfl, rfl⟩
  simpa using hs

protected theorem Writes.ite (c : Prop) [Decidable c] {n : Render α} (hm : Writes k f L Q m)
    (hn : Writes k f L Q n) : Writes k f L Q (if c then m else n) := by
  split
  · exact hm
  · exact hn

/-- A computation that looks at the world first. -/
protected theorem Writes.get {g : World → Render α} (h : ∀ w, w.IsData k f → Writes k f L Q (g w)) :
    Writes k f L Q (get >>= g) :=
  fun w _ _ hw hm => h w hw hw hm

protected theorem Quiet.result {r : Except Fault α} (h : ∀ a, r = .ok a → Q a) :
    Quiet k f Q (Render.result r) := by
  cases r with
  | ok a => exact Quiet.pure (h a rfl)
  | error e => exact Writes.throw e

/-! ## Results that may be missing -/

/-- What is there is as described. -/
def IfAny (P : α → Prop) (found : Option α) : Prop :=
  ∀ a ∈ found, P a

theorem IfAny.none : IfAny P none := nofun

theorem IfAny.some {a : α} (h : P a) : IfAny P (some a) := by
  rintro _ ⟨⟩
  exact h

theorem IfAny.map {found : Option α} (hfound : IfAny P found) {g : α → β} (h : ∀ a, P a → R (g a)) :
    IfAny R (found.map g) := by
  intro b hb
  obtain ⟨a, ha, rfl⟩ := Option.map_eq_some_iff.mp hb
  exact h a (hfound a ha)

protected theorem Writes.ifAny {m : Render (Option α)} {g : Option α → Render β}
    (hm : Quiet k f (IfAny P) m) (hnone : Writes k f L R (g none))
    (hsome : ∀ a, P a → Writes k f L R (g (some a))) : Writes k f L R (m >>= g) := by
  refine hm.then fun found hfound => ?_
  cases found with
  | none => exact hnone
  | some a => exact hsome a (hfound a rfl)

/-! ## Faults -/

/-- A handler that goes on failing has no success of its own. -/
protected theorem Writes.cleanUp (hm : Writes k f L Q m) (after : Render Unit) :
    Writes k f L Q (tryCatch m fun e => do after; throw e) := by
  intro w a v hw h
  rw [tryCatch_apply] at h
  split at h
  · next b u hu =>
    cases h
    exact hm hw hu
  · rw [bind_apply] at h
    split at h <;> cases h

/-! ## The buffer -/

protected theorem Writes.append {text : String} (h : L text) :
    Writes k f L (fun _ => True) (Render.append text) := by
  intro w a v hw hrun
  rw [append_apply] at hrun
  unfold Buffer.append at hrun
  split at hrun
  · next b hb =>
    cases hrun
    refine ⟨trivial, { hw with }, text, h, ?_⟩
    split at hb
    · next hempty =>
      cases hb
      rw [String.isEmpty_iff.mp hempty, String.append_empty]
    split at hb <;> cases hb <;> rfl
  · cases hrun

protected theorem Writes.within (h : Writes k f L Q m) : Writes k f L Q (Render.within m) := by
  intro w a v hw hrun
  rcases hm : m { w with buffer := w.buffer.enter } with ⟨r, u⟩
  have hrun : (r, { u with buffer := u.buffer.leave }) = (Except.ok a, v) := by
    rw [← hrun]
    unfold Render.within
    rw [hm]
  cases hrun
  have start : World.IsData k f { w with buffer := w.buffer.enter } := { hw with }
  obtain ⟨ha, hu, text, htext, hgrown⟩ := h start hm
  exact ⟨ha, { hu with }, text, htext, hgrown⟩

/-! ## The store -/

protected theorem Quiet.settle {v : Value} (h : v.IsData k) : Quiet k f (·.IsData k) (Render.settle v) := by
  rintro w _ _ hw ⟨⟩
  exact ⟨Value.isData_settle v h _, { hw with }, "", rfl, String.append_empty.symm⟩

protected theorem Quiet.settleAll {values : List Value} (h : AreData k values) :
    Quiet k f (AreData k) (Render.settleAll values) := by
  rintro w _ _ hw ⟨⟩
  exact ⟨Value.areData_settleAll values h _, { hw with }, "", rfl, String.append_empty.symm⟩

protected theorem Quiet.newIterator (kind : IteratorKind) {cursor : Cursor} (h : cursor.IsData k f) :
    Quiet k f (·.IsData k) (Render.newIterator kind cursor) := by
  rintro w _ _ hw ⟨⟩
  refine ⟨.iterator kind hw.oldCursors, { hw with cursors := ?_, oldCursors := ?_ }, "", rfl,
    String.append_empty.symm⟩
  · intro id c hid hc
    rw [Array.getElem?_push] at hc
    split at hc
    · cases hc
      exact h
    · exact hw.cursors hid hc
  · simpa using Nat.le_succ_of_le hw.oldCursors

protected theorem Quiet.store (id : Nat) {cursor : Cursor} (h : cursor.IsData k f) :
    Quiet k f (fun _ => True) (Render.store id cursor) := by
  rintro w _ _ hw ⟨⟩
  refine ⟨trivial, { hw with cursors := ?_, oldCursors := ?_ }, "", rfl,
    String.append_empty.symm⟩
  · intro other c hother hc
    simp only [Array.getElem?_setIfInBounds] at hc
    split at hc
    · split at hc <;> cases hc
      exact h
    · exact hw.cursors hother hc
  · simpa using hw.oldCursors

protected theorem Quiet.newFrame (names : List String) :
    Quiet k f (fun frame => f ≤ frame.id) (Render.newFrame names) := by
  rintro w _ _ hw ⟨⟩
  refine ⟨hw.oldFrames, { hw with frames := ?_, oldFrames := ?_ }, "", rfl,
    String.append_empty.symm⟩
  · intro id values hid hvalues
    rw [Array.getElem?_push] at hvalues
    split at hvalues
    · cases hvalues
      exact List.forall_mem_nil _
    · exact hw.frames hid hvalues
  · simpa using Nat.le_succ_of_le hw.oldFrames

theorem scopeData_insert {name : String} {v : Value} (hv : v.IsData k) {scope : Arguments}
    (h : ScopeData k scope) : ScopeData k (Arguments.insert name v scope) := by
  induction scope with
  | nil => exact List.forall_mem_singleton.mpr hv
  | cons b rest ih =>
    obtain ⟨hb, hrest⟩ := List.forall_mem_cons.mp h
    unfold Arguments.insert
    split
    · exact List.forall_mem_cons.mpr ⟨hv, hrest⟩
    · exact List.forall_mem_cons.mpr ⟨hb, ih hrest⟩

protected theorem Quiet.assign (frame : Nat) (name : String) {v : Value} (h : v.IsData k) :
    Quiet k f (fun _ => True) (Render.assign frame name v) := by
  refine (Quiet.settle h).then fun v hv => ?_
  rintro w _ _ hw ⟨⟩
  refine ⟨trivial, { hw with frames := ?_, oldFrames := ?_ }, "", rfl,
    String.append_empty.symm⟩
  · intro id values hid hvalues
    simp only [Array.getElem?_modify] at hvalues
    split at hvalues
    · obtain ⟨old, hold, rfl⟩ := Option.map_eq_some_iff.mp hvalues
      exact scopeData_insert hv (hw.frames hid hold)
    · exact hw.frames hid hvalues
  · simpa using hw.oldFrames

end Render

end Stencil
