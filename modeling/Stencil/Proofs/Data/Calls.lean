import Stencil.Proofs.Data.Feeds
import Stencil.Render.Call

/-!
# Calling data

Of data only the built-in functions and the methods of strings and dicts can be called. They write
nothing, and what they give is data.
-/

namespace Stencil

namespace Render

variable {k f : Nat} {run : Runner} (hr : run.TakesData k f)

include hr

/-! ## Built-in functions -/

theorem quiet_sum {v start : Value} (h : v.IsData k) (hstart : start.IsData k) :
    Quiet k f (·.IsData k) (sum run v start) := by
  refine (Quiet.result fun _ => Feed.isData_of? h).then fun feed hfeed => ?_
  cases start.string? with
  | some _ => exact Writes.throw _
  | none =>
    refine writes_foldFeed hr .nothing (fun hacc hv => ?_) hfeed (isData_sumStart hstart)
    exact Quiet.result (Value.isData_binary .add hacc hv)

omit hr in
theorem quiet_better (op : CompareOp) {best : Option Value} (hbest : IfAny (·.IsData k) best)
    {v : Value} (h : v.IsData k) : Quiet k f (IfAny (·.IsData k)) (better op best v) := by
  cases best with
  | none => exact Quiet.pure (.some h)
  | some b =>
    refine (Quiet.result fun _ _ => trivial).then fun _ _ => ?_
    exact Writes.ite _ (Quiet.pure (.some h)) (Quiet.pure hbest)

theorem quiet_extreme (op : CompareOp) {values : List Value} (h : AreData k values) :
    Quiet k f (·.IsData k) (extreme run op values) := by
  have hstep : ∀ {best : Option Value} {v : Value}, IfAny (·.IsData k) best → v.IsData k →
      Quiet k f (IfAny (·.IsData k)) (better op best v) := fun hbest hv =>
    quiet_better op hbest hv
  unfold extreme
  rcases values with _ | ⟨v, _ | ⟨w, rest⟩⟩
  all_goals
    refine Writes.then (Q := IfAny fun v : Value => v.IsData k) ?_ fun best hbest => ?_
    on_goal 2 => cases best with
      | none => exact Writes.throw _
      | some v => exact Quiet.pure (hbest v rfl)
  · exact Writes.throw _
  · exact writes_fold hr .nothing hstep (h v (List.mem_singleton_self v)) .none
  · exact writes_foldItems .nothing hstep h .none

omit hr in
theorem quiet_numbered {v : Value} (h : v.IsData k) (first : Int) :
    Quiet k f (·.IsData k) (numbered v first) := by
  refine (Quiet.result fun _ => Feed.isData_of? h).then fun feed hfeed => ?_
  have hcursor : Cursor.IsData k f (.numbered first feed) := hfeed
  exact Quiet.newIterator _ hcursor

omit hr in
theorem areData_feeds {values : List Value} (h : AreData k values) {feeds : List Feed}
    (hfeeds : values.mapM Feed.of? = .ok feeds) : ∀ feed ∈ feeds, feed.IsData k := by
  have hpairs := mapM_eq_ok hfeeds
  clear hfeeds
  induction hpairs with
  | nil => exact List.forall_mem_nil _
  | cons hfeed _ ih =>
    obtain ⟨hv, hrest⟩ := List.forall_mem_cons.mp h
    exact List.forall_mem_cons.mpr ⟨Feed.isData_of? hv hfeed, ih hrest⟩

theorem quiet_builtin (b : Builtin) {values : List Value} (h : AreData k values) :
    Quiet k f (·.IsData k) (b.call run values) := by
  have hfirst : ∀ {v : Value} {rest : List Value}, AreData k (v :: rest) → v.IsData k :=
    fun h => h _ (List.mem_cons_self ..)
  unfold Builtin.call
  split
  · exact Quiet.result (Value.isData_count _)
  · exact Quiet.pure (Value.isData_ofString _)
  · exact Quiet.result (Value.isData_toText _)
  · exact Quiet.result (Value.isData_toText _)
  · exact (Quiet.result fun _ _ => trivial).map fun _ _ => Value.isData_ofString _
  · exact Quiet.pure (.bool _)
  · exact Quiet.pure (.bool _)
  · exact Quiet.pure (Value.isData_ofInt _)
  · exact Quiet.result (Value.isData_toInteger (hfirst h))
  · exact Quiet.result (Value.isData_toIntegerIn _ _)
  · exact Quiet.pure (.float _ _)
  · exact Quiet.result (Value.isData_toFloating _)
  · exact Quiet.result (Value.isData_magnitude (hfirst h))
  · exact Quiet.result (Value.isData_rangeOf _)
  · exact Quiet.pure (.list _ AreData.nil)
  · exact (quiet_drain hr (hfirst h)).map fun _ hitems => .list _ hitems
  · exact Quiet.pure (.set _ AreData.nil)
  · refine (quiet_drain hr (hfirst h)).then fun items hitems => ?_
    exact Quiet.result (Value.isData_toSet _ hitems)
  · refine (quiet_drain hr (hfirst h)).then fun items hitems => ?_
    exact (Quiet.result fun _ => Value.areData_sort hitems).map fun _ hsorted => .list _ hsorted
  · exact quiet_sum hr (hfirst h) (Value.isData_ofInt 0)
  · exact quiet_sum hr (hfirst h) (h _ (by simp))
  · exact quiet_extreme hr .lt h
  · exact quiet_extreme hr .gt h
  · exact quiet_numbered (hfirst h) 0
  · exact (Quiet.result fun _ _ => trivial).then fun first _ => quiet_numbered (hfirst h) first
  · refine (Quiet.result fun _ => areData_feeds h).then fun feeds hfeeds => ?_
    have hcursor : Cursor.IsData k f (.zipped feeds) := hfeeds
    exact Quiet.newIterator _ hcursor
  · exact Writes.throw _

/-! ## Methods -/

theorem quiet_onSubject (m : Method) {subject : Value} (hsubject : subject.IsData k)
    {values : List Value} (h : AreData k values) :
    Quiet k f (·.IsData k) (m.onSubject run subject values) := by
  unfold Method.onSubject
  split
  · next v =>
    refine (Quiet.result fun _ _ => trivial).then fun mark _ => ?_
    refine (quiet_drain hr (h v (List.mem_singleton_self v))).then fun parts _ => ?_
    exact Quiet.result (Method.isData_joined mark parts)
  · exact Quiet.result (Method.isData_onDict m (Value.IsData.dict_iff.mp hsubject) h)
  · refine (Quiet.result fun _ _ => trivial).then fun text _ => ?_
    exact Quiet.result (Method.isData_onString m hsubject text _)

theorem quiet_onContainer (m : Method) {subject : Value} (hsubject : subject.IsData k)
    {values : List Value} (h : AreData k values) :
    Quiet k f (·.IsData k) (m.onContainer run subject values []) := by
  have hplace : ∀ {given}, AreData k given → Quiet k f (AreData k)
      (result (m.inPlace given [])) := by
    intro given hgiven
    cases m <;> exact Quiet.pure hgiven
  unfold Method.onContainer
  split
  · next v rest =>
    obtain ⟨hv, hrest⟩ := List.forall_mem_cons.mp h
    refine Writes.ite _ ?_ (Writes.throw _)
    exact (hplace hrest).then fun arguments harguments => quiet_onSubject hr m hv harguments
  · exact Writes.throw _
  · exact (hplace h).then fun arguments harguments => quiet_onSubject hr m hsubject harguments

theorem quiet_callMethod {m : Method} (hm : m.isPlain) {subject : Value}
    (hsubject : subject.IsData k) {values : List Value} (h : AreData k values) :
    Quiet k f (·.IsData k) (callMethod run m subject values []) := by
  have hcontainer : callMethod run m subject values [] = m.onContainer run subject values [] := by
    cases m <;> first | rfl | cases hm
  rw [hcontainer]
  exact quiet_onContainer hr m hsubject h

/-- **Calling data** with data writes nothing and gives data. -/
theorem quiet_call {g : Value} (hg : g.IsData k) {values : List Value} (h : AreData k values) :
    Quiet k f (·.IsData k) (call run g values []) := by
  cases hg with
  | builtin b =>
    exact (Quiet.result fun _ => Builtin.areData_inPlace h).then fun arguments harguments =>
      quiet_builtin hr b harguments
  | method m hm hsubject => exact quiet_callMethod hr hm hsubject h
  | _ => exact Writes.throw _

end Render

end Stencil
