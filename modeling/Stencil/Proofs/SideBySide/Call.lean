import Stencil.Proofs.SideBySide.Feed

/-!
# Calls side by side

Whatever can be called does the same in worlds that are tied, and so does writing a value. The
buffer is touched by appending, by renders inside of renders and by asking for its text, which are
the steps that a bond has rules for.
-/

namespace Stencil

namespace Bond

variable {ι α β : Type} {B : Bond ι} {i : ι} {run run' : Runner} (hr : B.Runners run run')

include hr

/-! ## Built-in functions and methods -/

theorem agree_sum (v start : Value) :
    B.Agree i (Render.sum run v start) (Render.sum run' v start) := by
  refine (Agree.result _).bind fun feed => ?_
  cases start.string? with
  | some _ => exact Agree.throw _
  | none => exact agree_foldFeed hr (fun _ _ => Agree.result _) _ feed

omit hr in
theorem agree_better (op : CompareOp) (best : Option Value) (v : Value) :
    B.Agree i (Render.better op best v) (Render.better op best v) := by
  cases best with
  | none => exact Agree.pure _
  | some b => exact (Agree.result _).bind fun c => Agree.ite c (Agree.pure _) (Agree.pure _)

theorem agree_extreme (op : CompareOp) (arguments : List Value) :
    B.Agree i (Render.extreme run op arguments) (Render.extreme run' op arguments) := by
  unfold Render.extreme
  rcases arguments with _ | ⟨v, _ | ⟨w, rest⟩⟩
  all_goals
    refine Agree.bind ?_ fun best => ?_
    on_goal 2 => cases best with
      | none => exact Agree.throw _
      | some v => exact Agree.pure v
  · exact Agree.throw _
  · exact agree_fold hr (agree_better op) none v
  · exact agree_foldItems (agree_better op) (v :: w :: rest) none

omit hr in
theorem agree_numbered (v : Value) (first : Int) :
    B.Agree i (Render.numbered v first) (Render.numbered v first) :=
  (Agree.result _).bind fun _ => Agree.newIterator _ _

theorem agree_builtin (f : Builtin) (arguments : List Value) :
    B.Agree i (f.call run arguments) (f.call run' arguments) := by
  unfold Builtin.call
  split
  all_goals first
    | exact Agree.pure _
    | exact Agree.throw _
    | exact Agree.result _
    | exact (Agree.result _).map _
    | exact (agree_drain hr _).map _
    | exact (agree_drain hr _).bind fun _ => (Agree.result _).map _
    | exact (agree_drain hr _).bind fun _ => Agree.result _
    | exact agree_sum hr _ _
    | exact agree_extreme hr _ _
    | exact agree_numbered _ _
    | exact (Agree.result _).bind fun _ => agree_numbered _ _
    | exact (Agree.result _).bind fun _ => Agree.newIterator _ _

theorem agree_onSubject (m : Method) (subject : Value) (arguments : List Value) :
    B.Agree i (m.onSubject run subject arguments) (m.onSubject run' subject arguments) := by
  unfold Method.onSubject
  split
  · exact (Agree.result _).bind fun _ => (agree_drain hr _).bind fun _ => Agree.result _
  · exact Agree.result _
  · exact (Agree.result _).bind fun _ => Agree.result _

theorem agree_onContainer (m : Method) (subject : Value) (given : List Value) (named : Arguments) :
    B.Agree i (m.onContainer run subject given named) (m.onContainer run' subject given named) := by
  unfold Method.onContainer
  split
  · split
    · exact (Agree.result _).bind fun _ => agree_onSubject hr m _ _
    · exact Agree.throw _
  · exact Agree.throw _
  · exact (Agree.result _).bind fun _ => agree_onSubject hr m _ _

/-! ## Components -/

theorem agree_callMember (v : Value) (name : String) (given : List Value) :
    B.Agree i (Render.callMember run v name given) (Render.callMember run' v name given) :=
  (Agree.result _).bind fun _ => hr.apply i _ _ _

theorem agree_echoed (argument : String × Value) :
    B.Agree i (Render.echoed run argument) (Render.echoed run' argument) := by
  obtain ⟨name, v⟩ := argument
  unfold Render.echoed
  split
  · exact (agree_callMember hr _ _ _).bind fun _ => (Agree.result _).map _
  · exact (Agree.result _).map _

theorem agree_component (c : Component) (given : List Value) (named : Arguments) :
    B.Agree i (c.call run given named) (c.call run' given named) := by
  refine (Agree.result _).bind fun ⟨values, more⟩ => ?_
  dsimp only
  split
  all_goals first
    | exact Agree.pure _
    | exact Agree.ite _ ((Agree.result _).map _) (Agree.pure _)
    | exact Agree.throw _
    | exact agree_callMember hr _ _ _
    | exact (Agree.mapM (agree_echoed hr) _).map _

/-! ## Renders by themselves -/

theorem agree_writeSelf (v : Value) (context : Arguments) :
    B.Agree i (Render.writeSelf run v context) (Render.writeSelf run' v context) := by
  unfold Render.writeSelf
  split
  · exact Agree.append _
  · exact (hr.perform _ _).within
  · exact hr.perform i _
  · exact Agree.throw _

theorem agree_renderSelf (v : Value) (context : Arguments) :
    B.Agree i (Render.renderSelf run v context) (Render.renderSelf run' v context) :=
  (agree_writeSelf hr v context).onFreshBuffer.map _

theorem agree_renderAny (v : Value) (context : Arguments) :
    B.Agree i (Render.renderAny run v context) (Render.renderAny run' v context) :=
  (Agree.result _).bind fun _ =>
    ((hr.apply B.fresh _ _ _).bind fun _ => Agree.pure ()).onFreshBuffer.map _

/-! ## Methods and classes -/

omit hr in
theorem agree_createRaw (v : Value) :
    B.Agree i (Render.callMethod.createRaw v) (Render.callMethod.createRaw v) := by
  refine (Agree.result _).bind fun text => ?_
  split
  · exact Agree.pure _
  · exact Agree.throw _

theorem agree_callMethod (m : Method) (subject : Value) (given : List Value) (named : Arguments) :
    B.Agree i (Render.callMethod run m subject given named)
      (Render.callMethod run' m subject given named) := by
  unfold Render.callMethod
  split
  all_goals first
    | exact Agree.throw _
    | exact Agree.pure _
    | exact agree_renderAny hr _ _
    | exact agree_renderSelf hr _ _
    | exact (agree_writeSelf hr _ _).bind fun _ => Agree.pure _
    | exact agree_createRaw _
    | exact agree_onContainer hr _ _ _ _

omit hr in
theorem agree_compiled (d : Dialect) (source name : String) (verbose : Bool) (registry : Value) :
    B.Agree i (Render.compiled d source name verbose registry)
      (Render.compiled d source name verbose registry) := by
  refine Agree.get fun {w w'} hw => ?_
  rw [hw.registry]
  split
  · exact (Agree.setRegistry hw _).bind fun _ => Agree.pure _
  · exact (Agree.setRegistry hw _).bind fun _ => Agree.throw _
  · exact Agree.throw _
  · exact Agree.throw _

omit hr in
theorem agree_newTemplate (source dialect registry : Value) (options : Arguments) :
    B.Agree i (Render.newTemplate source dialect registry options)
      (Render.newTemplate source dialect registry options) := by
  refine (Agree.result _).bind fun d => ?_
  cases source.string? with
  | none => exact Agree.throw _
  | some text =>
    dsimp only
    cases Value.named? "name" options with
    | none => exact (Agree.pure _).bind fun name => agree_compiled d text name _ registry
    | some v => exact (Agree.result _).bind fun name => agree_compiled d text name _ registry

omit hr in
theorem agree_callTemplate (given : List Value) (named : Arguments) :
    B.Agree i (Render.callTemplate given named) (Render.callTemplate given named) := by
  refine (Agree.result _).bind fun ⟨values, options⟩ => ?_
  dsimp only
  split
  · exact agree_newTemplate _ _ _ _
  · exact Agree.throw _

omit hr in
theorem agree_callKind (k : Kind) (given : List Value) (named : Arguments) :
    B.Agree i (Render.callKind k given named) (Render.callKind k given named) := by
  unfold Render.callKind
  split
  all_goals first
    | exact Agree.throw _
    | exact Agree.pure _
    | exact agree_callTemplate _ _

theorem agree_call (f : Value) (given : List Value) (named : Arguments) :
    B.Agree i (Render.call run f given named) (Render.call run' f given named) := by
  unfold Render.call
  split
  · exact agree_component hr _ _ _
  · exact Agree.pure _
  · exact (Agree.result _).bind fun _ => agree_builtin hr _ _
  · exact agree_callMethod hr _ _ _ _
  · exact agree_callKind _ _ _
  · exact Agree.throw _

/-! ## Writing values -/

omit hr in
theorem agree_push (v : Value) : B.Agree i (Render.push v) (Render.push v) :=
  (Agree.result _).bind fun _ => Agree.append _

theorem agree_renderTo (v : Value) : B.Agree i (Render.renderTo run v) (Render.renderTo run' v) :=
  (Agree.result _).bind fun _ => (agree_call hr _ _ _).bind fun _ => Agree.pure ()

theorem agree_writeValue (v : Value) :
    B.Agree i (Render.writeValue run v) (Render.writeValue run' v) := by
  unfold Render.writeValue
  split
  · exact agree_push _
  · exact agree_push _
  · exact agree_push _
  · exact (agree_call hr _ _ _).bind fun _ => Agree.pure ()

end Bond

end Stencil
