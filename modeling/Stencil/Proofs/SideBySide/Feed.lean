import Stencil.Proofs.SideBySide.Bond

/-!
# Feeds and names side by side

Values are taken from feeds, and names looked up and bound, alike in worlds that are tied. What is
done for a render by its runner has to agree, so all statements are about two runners that do.
-/

namespace Stencil

namespace Bond

variable {ι α β : Type} {B : Bond ι} {i : ι}

/-- Two runners that agree at every level. -/
structure Runners (B : Bond ι) (run run' : Runner) : Prop where
  perform : ∀ i action, B.Agree i (run.perform action) (run'.perform action)
  next : ∀ i id, B.Agree i (run.next id) (run'.next id)
  apply : ∀ i f given named, B.Agree i (run.apply f given named) (run'.apply f given named)

variable {run run' : Runner} (hr : B.Runners run run')

/-! ## Feeds -/

include hr

theorem agree_pull (feed : Feed) : B.Agree i (Render.pull run feed) (Render.pull run' feed) := by
  match feed with
  | .items [] => exact Agree.pure _
  | .items (_ :: _) => exact Agree.pure _
  | .count _ _ 0 => exact Agree.pure _
  | .count _ _ (_ + 1) => exact Agree.pure _
  | .iterator id => exact (hr.next i id).map _

omit hr in
theorem agree_foldItems {step step' : β → Value → Render β}
    (h : ∀ acc v, B.Agree i (step acc v) (step' acc v)) :
    ∀ (items : List Value) (acc : β),
      B.Agree i (Render.foldItems step acc items) (Render.foldItems step' acc items)
  | [], acc => Agree.pure acc
  | v :: rest, acc => (h acc v).bind fun acc => agree_foldItems h rest acc

omit hr in
theorem agree_foldCount {step step' : β → Value → Render β}
    (h : ∀ acc v, B.Agree i (step acc v) (step' acc v)) (by_ : Int) :
    ∀ (left : Nat) (n : Int) (acc : β),
      B.Agree i (Render.foldCount step by_ left n acc) (Render.foldCount step' by_ left n acc)
  | 0, _, acc => Agree.pure acc
  | left + 1, n, acc => (h acc _).bind fun acc => agree_foldCount h by_ left (n + by_) acc

theorem agree_foldPulls {step step' : β → Value → Render β}
    (h : ∀ acc v, B.Agree i (step acc v) (step' acc v)) (id : Nat) :
    ∀ (n : Nat) (acc : β),
      B.Agree i (Render.foldPulls run step id n acc) (Render.foldPulls run' step' id n acc)
  | 0, acc => Agree.pure acc
  | n + 1, acc => (hr.next i id).bind fun
    | none => Agree.pure acc
    | some v => (h acc v).bind fun acc => agree_foldPulls h id n acc

theorem agree_foldFeed {step step' : β → Value → Render β}
    (h : ∀ acc v, B.Agree i (step acc v) (step' acc v)) (acc : β) (feed : Feed) :
    B.Agree i (Render.foldFeed run step acc feed) (Render.foldFeed run' step' acc feed) := by
  cases feed with
  | items items => exact agree_foldItems h items acc
  | count n by_ left => exact agree_foldCount h by_ left n acc
  | iterator id => exact agree_foldPulls hr h id _ acc

theorem agree_fold {step step' : β → Value → Render β}
    (h : ∀ acc v, B.Agree i (step acc v) (step' acc v)) (acc : β) (v : Value) :
    B.Agree i (Render.fold run step acc v) (Render.fold run' step' acc v) :=
  (Agree.result _).bind fun feed => agree_foldFeed hr h acc feed

theorem agree_findPull {step step' : Value → Render (Option β)}
    (h : ∀ v, B.Agree i (step v) (step' v)) :
    ∀ (n : Nat) (feed : Feed),
      B.Agree i (Render.findPull run step n feed) (Render.findPull run' step' n feed)
  | 0, _ => Agree.pure _
  | n + 1, feed => (agree_pull hr feed).bind fun
    | none => Agree.pure _
    | some (v, feed) => (h v).bind fun
      | some _ => Agree.pure _
      | none => agree_findPull h n feed

theorem agree_drain (v : Value) : B.Agree i (Render.drain run v) (Render.drain run' v) :=
  (Agree.result _).bind fun _ => (agree_fold hr (fun _ _ => Agree.pure _) _ v).map _

theorem agree_takeFeed :
    ∀ (n : Nat) (feed : Feed), B.Agree i (Render.takeFeed run n feed) (Render.takeFeed run' n feed)
  | 0, _ => Agree.pure _
  | n + 1, feed => (agree_pull hr feed).bind fun
    | none => Agree.pure _
    | some (_, feed) => (agree_takeFeed n feed).map _

theorem agree_unpack (count : Nat) (v : Value) :
    B.Agree i (Render.unpack run count v) (Render.unpack run' count v) :=
  (Agree.result _).bind fun _ => (agree_takeFeed hr count _).bind fun
    | none => Agree.throw _
    | some (_, feed) => (agree_pull hr feed).bind fun
      | none => Agree.pure _
      | some _ => Agree.throw _

theorem agree_pullEach (id : Nat) :
    ∀ (feeds before : List Feed),
      B.Agree i (Render.pullEach run id before feeds) (Render.pullEach run' id before feeds)
  | [], _ => Agree.pure _
  | feed :: rest, before => (agree_pull hr feed).bind fun
    | none => Agree.pure _
    | some (_, feed) => (Agree.store id _).bind fun _ =>
      (agree_pullEach id rest (before ++ [feed])).map _

theorem agree_advance (id : Nat) (cursor : Cursor) :
    B.Agree i (Render.advance run id cursor) (Render.advance run' id cursor) := by
  match cursor with
  | .plain feed =>
    exact (agree_pull hr feed).bind fun
      | none => Agree.pure _
      | some _ => (Agree.store id _).bind fun _ => Agree.pure _
  | .numbered _ feed =>
    exact (agree_pull hr feed).bind fun
      | none => Agree.pure _
      | some _ => (Agree.store id _).bind fun _ => Agree.pure _
  | .zipped [] => exact Agree.pure _
  | .zipped (feed :: rest) => exact (agree_pullEach hr id (feed :: rest) []).map _
  | .suspended .. => exact Agree.pure _
  | .running => exact Agree.pure _
  | .finished => exact Agree.pure _

/-! ## Names -/

omit hr in
theorem agree_lookupFrames (name : String) :
    ∀ (frames : List Frame) (missing : Fault),
      B.Agree i (Render.lookupFrames name missing frames) (Render.lookupFrames name missing frames)
  | [], _ => Agree.pure _
  | frame :: rest, missing => by
    refine Agree.ite _ (Agree.get fun {w w'} hw => ?_) (agree_lookupFrames name rest _)
    rw [hw.frames]
    cases Value.named? name (w'.frames.getD frame.id []) with
    | none => exact Agree.throw _
    | some _ => exact Agree.pure _

omit hr in
theorem agree_lookup (env : Env) (name : String) :
    B.Agree i (Render.lookup env name) (Render.lookup env name) := by
  refine (agree_lookupFrames name env.frames _).bind fun found => ?_
  cases found with
  | some v => exact Agree.pure v
  | none =>
    cases Value.named? name env.context <;> cases Builtin.ofName? name <;>
      first | exact Agree.pure _ | exact Agree.throw _

omit hr

mutual

theorem agree_bindTarget (hr : B.Runners run run') (frame : Nat) :
    ∀ (t : Target) (v : Value),
      B.Agree i (Render.bindTarget run frame t v) (Render.bindTarget run' frame t v)
  | .name id, v => by
    simpa only [Render.bindTarget] using Agree.assign frame id v
  | .tuple parts, v => by
    simpa only [Render.bindTarget] using
      (agree_unpack hr parts.length v).bind fun values => agree_bindTargets hr frame parts values

theorem agree_bindTargets (hr : B.Runners run run') (frame : Nat) :
    ∀ (ts : List Target) (values : List Value),
      B.Agree i (Render.bindTargets run frame ts values) (Render.bindTargets run' frame ts values)
  | [], _ => by simpa only [Render.bindTargets] using Agree.pure ()
  | _ :: _, [] => by simpa only [Render.bindTargets] using Agree.pure ()
  | t :: rest, v :: values => by
    simpa only [Render.bindTargets] using
      (agree_bindTarget hr frame t v).bind fun _ => agree_bindTargets hr frame rest values

end

end Bond

end Stencil
