import Stencil.Proofs.Data.Writes
import Stencil.Render.Names

/-!
# Taking data one by one

What is taken from a feed of data is data, and nothing is written meanwhile. Going through a feed
writes what is written for each of its values, one after the other.
-/

namespace Stencil

variable {k f : Nat}

theorem Feed.isData_of? {v : Value} (h : v.IsData k) {feed : Feed} (hfeed : Feed.of? v = .ok feed) :
    feed.IsData k := by
  unfold Feed.of? at hfeed
  split at hfeed
  · cases hfeed
    cases h
    assumption
  · cases hfeed
    exact trivial
  · split at hfeed
    · next hheld =>
      cases hfeed
      exact Value.areData_contents h hheld
    · cases hfeed

/-- Whether what the runner takes from new iterators is data. -/
def Runner.TakesData (k f : Nat) (run : Runner) : Prop :=
  ∀ id, k ≤ id → Render.Quiet k f (Render.IfAny (·.IsData k)) (run.next id)

namespace Render

variable {α β : Type} {run : Runner} (hr : run.TakesData k f)

include hr

theorem quiet_pull {feed : Feed} (h : feed.IsData k) :
    Quiet k f (IfAny fun p => p.1.IsData k ∧ p.2.IsData k) (pull run feed) := by
  match feed, h with
  | .items [], _ => exact Quiet.pure .none
  | .items (v :: rest), h => exact Quiet.pure (.some (List.forall_mem_cons.mp h))
  | .count _ _ 0, _ => exact Quiet.pure .none
  | .count _ _ (_ + 1), _ => exact Quiet.pure (.some ⟨Value.isData_ofInt _, trivial⟩)
  | .iterator id, h => exact (hr id h).map fun _ hfound => hfound.map fun v hv => ⟨hv, h⟩

/-! ## Going through a feed -/

section

variable {L : String → Prop} (hL : Chained L) {P : β → Prop} {step : β → Value → Render β}
  (hstep : ∀ {acc v}, P acc → v.IsData k → Writes k f L P (step acc v))

include hL hstep

omit hr in
theorem writes_foldItems {items : List Value} (h : AreData k items) {acc : β} (hacc : P acc) :
    Writes k f L P (foldItems step acc items) := by
  induction items generalizing acc with
  | nil => exact Writes.pure hL.empty hacc
  | cons v rest ih =>
    obtain ⟨hv, hrest⟩ := List.forall_mem_cons.mp h
    exact (hstep hacc hv).chain hL fun acc hacc => ih hrest hacc

omit hr in
theorem writes_foldCount (by_ : Int) (left : Nat) (n : Int) {acc : β} (hacc : P acc) :
    Writes k f L P (foldCount step by_ left n acc) := by
  induction left generalizing n acc with
  | zero => exact Writes.pure hL.empty hacc
  | succ left ih =>
    exact (hstep hacc (Value.isData_ofInt n)).chain hL fun acc hacc => ih _ hacc

theorem writes_foldPulls {id : Nat} (h : k ≤ id) (n : Nat) {acc : β} (hacc : P acc) :
    Writes k f L P (foldPulls run step id n acc) := by
  induction n generalizing acc with
  | zero => exact Writes.pure hL.empty hacc
  | succ n ih =>
    refine (hr id h).ifAny (Writes.pure hL.empty hacc) fun v hv => ?_
    exact (hstep hacc hv).chain hL fun acc hacc => ih hacc

theorem writes_foldFeed {feed : Feed} (h : feed.IsData k) {acc : β} (hacc : P acc) :
    Writes k f L P (foldFeed run step acc feed) := by
  cases feed with
  | items items => exact writes_foldItems hL hstep h hacc
  | count n by_ left => exact writes_foldCount hL hstep by_ left n hacc
  | iterator id => exact writes_foldPulls hr hL hstep h _ hacc

/-- **Going through a value** writes what its steps write, one after the other. -/
theorem writes_fold {v : Value} (h : v.IsData k) {acc : β} (hacc : P acc) :
    Writes k f L P (fold run step acc v) :=
  (Quiet.result fun _ => Feed.isData_of? h).then fun _ hfeed =>
    writes_foldFeed hr hL hstep hfeed hacc

end

theorem quiet_findPull {P : β → Prop} {step : Value → Render (Option β)}
    (hstep : ∀ {v}, v.IsData k → Quiet k f (IfAny P) (step v)) (n : Nat) {feed : Feed}
    (h : feed.IsData k) :
    Quiet k f (IfAny fun p => P p.1 ∧ p.2.IsData k) (findPull run step n feed) := by
  induction n generalizing feed with
  | zero => exact Quiet.pure .none
  | succ n ih =>
    refine (quiet_pull hr h).ifAny (Quiet.pure .none) fun (v, feed) ⟨hv, hfeed⟩ => ?_
    exact (hstep hv).ifAny (ih hfeed) fun x hx => Quiet.pure (.some ⟨hx, hfeed⟩)

/-! ## Taking many at once -/

theorem quiet_drain {v : Value} (h : v.IsData k) : Quiet k f (AreData k) (drain run v) := by
  refine (Quiet.result fun _ _ => trivial).then fun _ _ => ?_
  refine (writes_fold hr .nothing (fun hacc hv => Quiet.pure (AreData.cons hv hacc)) h .nil).map
    fun values hvalues => ?_
  exact hvalues.subset (List.reverse_subset.mpr (List.Subset.refl _))

theorem quiet_takeFeed (n : Nat) {feed : Feed} (h : feed.IsData k) :
    Quiet k f (IfAny fun p => AreData k p.1 ∧ p.2.IsData k) (takeFeed run n feed) := by
  induction n generalizing feed with
  | zero => exact Quiet.pure (.some ⟨.nil, h⟩)
  | succ n ih =>
    refine (quiet_pull hr h).ifAny (Quiet.pure .none) fun (v, feed) ⟨hv, hfeed⟩ => ?_
    exact (ih hfeed).map fun _ htaken => htaken.map fun p hp => ⟨.cons hv hp.1, hp.2⟩

theorem quiet_unpack (count : Nat) {v : Value} (h : v.IsData k) :
    Quiet k f (AreData k) (unpack run count v) := by
  refine (Quiet.result fun _ => Feed.isData_of? h).then fun feed hfeed => ?_
  refine (quiet_takeFeed hr count hfeed).ifAny (Writes.throw _) fun (values, feed) hp => ?_
  exact (quiet_pull hr hp.2).ifAny (Quiet.pure hp.1) fun _ _ => Writes.throw _

/-! ## Iterators that draw on others -/

theorem quiet_pullEach (id : Nat) {before feeds : List Feed}
    (hbefore : ∀ feed ∈ before, feed.IsData k) (h : ∀ feed ∈ feeds, feed.IsData k) :
    Quiet k f (IfAny (AreData k)) (pullEach run id before feeds) := by
  induction feeds generalizing before with
  | nil => exact Quiet.pure (.some .nil)
  | cons feed rest ih =>
    obtain ⟨hfeed, hrest⟩ := List.forall_mem_cons.mp h
    refine (quiet_pull hr hfeed).ifAny (Quiet.pure .none) fun (v, feed) ⟨hv, hfeed⟩ => ?_
    have hcursor : Cursor.IsData k f (.zipped (before ++ feed :: rest)) :=
      List.forall_mem_append.mpr ⟨hbefore, List.forall_mem_cons.mpr ⟨hfeed, hrest⟩⟩
    have hdone : ∀ other ∈ before ++ [feed], other.IsData k :=
      List.forall_mem_append.mpr ⟨hbefore, List.forall_mem_singleton.mpr hfeed⟩
    refine (Quiet.store id hcursor).then fun _ _ => ?_
    exact (ih hdone hrest).map fun _ htaken => htaken.map fun values hvalues => .cons hv hvalues

theorem quiet_advance (id : Nat) {cursor : Cursor} (h : cursor.IsData k f) :
    Quiet k f (IfAny (·.IsData k)) (advance run id cursor) := by
  match cursor, h with
  | .plain feed, h =>
    refine (quiet_pull hr h).ifAny (Quiet.pure .none) fun (v, feed) ⟨hv, hfeed⟩ => ?_
    have hcursor : Cursor.IsData k f (.plain feed) := hfeed
    exact (Quiet.store id hcursor).then fun _ _ => Quiet.pure (.some hv)
  | .numbered n feed, h =>
    refine (quiet_pull hr h).ifAny (Quiet.pure .none) fun (v, feed) ⟨hv, hfeed⟩ => ?_
    have hcursor : Cursor.IsData k f (.numbered (n + 1) feed) := hfeed
    refine (Quiet.store id hcursor).then fun _ _ => Quiet.pure (.some ?_)
    exact .tuple _ (AreData.cons (Value.isData_ofInt n) (AreData.cons hv .nil))
  | .zipped [], _ => exact Quiet.pure .none
  | .zipped (feed :: rest), h =>
    refine (quiet_pullEach hr id (List.forall_mem_nil _) h).map fun _ hfound => ?_
    exact hfound.map fun values hvalues => .tuple _ hvalues
  | .suspended .., _ => exact Quiet.pure .none
  | .running, _ => exact Quiet.pure .none
  | .finished, _ => exact Quiet.pure .none

/-! ## Names -/

omit hr in
theorem quiet_lookupFrames (name : String) (missing : Fault) {frames : List Frame}
    (h : ∀ frame ∈ frames, f ≤ frame.id) :
    Quiet k f (IfAny (·.IsData k)) (lookupFrames name missing frames) := by
  induction frames generalizing missing with
  | nil => exact Quiet.pure .none
  | cons frame rest ih =>
    obtain ⟨hframe, hrest⟩ := List.forall_mem_cons.mp h
    refine Writes.ite _ (Writes.get fun w hw => ?_) (ih _ hrest)
    split
    · next v hv =>
      refine Quiet.pure (.some ?_)
      rw [Array.getD_eq_getD_getElem?] at hv
      cases hvalues : w.frames[frame.id]? with
      | none => simp [hvalues, Value.named?] at hv
      | some values =>
        rw [hvalues] at hv
        exact Value.isData_named (hw.frames hframe hvalues) hv
    · exact Writes.throw _

omit hr in
theorem quiet_lookup {env : Env} (h : env.IsData k f) (name : String) :
    Quiet k f (·.IsData k) (lookup env name) := by
  refine (quiet_lookupFrames name _ h.frames).ifAny ?_ fun v hv => Quiet.pure hv
  cases hv : Value.named? name env.context with
  | some v => exact Quiet.pure (Value.isData_named h.context hv)
  | none =>
    cases Builtin.ofName? name with
    | some b => exact Quiet.pure (.builtin b)
    | none => exact Writes.throw _

omit hr

mutual

theorem quiet_bindTarget (hr : run.TakesData k f) (frame : Nat) (t : Target) {v : Value}
    (h : v.IsData k) : Quiet k f (fun _ => True) (bindTarget run frame t v) :=
  match t with
  | .name id => by
    rw [bindTarget]
    exact Quiet.assign frame id h
  | .tuple parts => by
    rw [bindTarget]
    exact (quiet_unpack hr parts.length h).then fun values hvalues =>
      quiet_bindTargets hr frame parts hvalues

theorem quiet_bindTargets (hr : run.TakesData k f) (frame : Nat) (ts : List Target)
    {values : List Value} (h : AreData k values) :
    Quiet k f (fun _ => True) (bindTargets run frame ts values) :=
  match ts, values, h with
  | [], _, _ => by
    rw [bindTargets]
    · exact Quiet.pure trivial
    · nofun
  | _ :: _, [], _ => by
    rw [bindTargets]
    · exact Quiet.pure trivial
    · nofun
  | t :: rest, v :: values, h => by
    obtain ⟨hv, hvalues⟩ := List.forall_mem_cons.mp h
    rw [bindTargets]
    exact (quiet_bindTarget hr frame t hv).then fun _ _ => quiet_bindTargets hr frame rest hvalues

end

end Render

end Stencil
