import Stencil.Proofs.Data.Evaluate
import Stencil.Proofs.Markup.Escaped
import Stencil.Render.Execute

/-!
# What a plan writes

A plan that is run with data writes a text that it spells, if it has neither trusted markup nor
components. Its conditions and sources write nothing themselves.
-/

namespace Stencil

namespace Render

variable {k f : Nat} {run : Runner}

/-! ## Values -/

theorem member?_renderTo {v : Value} (h : v.IsData k) : v.member? "render_to" = none := by
  cases h with
  | builtin b => cases b <;> rfl
  | _ => rfl

theorem writes_push (v : Value) :
    Writes k f (fun text => Markup.Inert text.toList) (fun _ => True) (push v) :=
  (Quiet.result fun _ => Value.inert_markup).then fun _ htext => Writes.append htext

theorem writes_writeValue {v : Value} (h : v.IsData k) :
    Writes k f (fun text => Markup.Inert text.toList) (fun _ => True) (writeValue run v) := by
  have hpush : writeValue run v = push v := by
    unfold writeValue
    rw [member?_renderTo h]
    cases h <;> rfl
  rw [hpush]
  exact writes_push v

theorem quiet_partTexts (hr : run.TakesData k f) {scope : Scope} (h : ScopeData k scope)
    (parts : List Part) : Quiet k f (fun _ => True) (partTexts run scope parts) := by
  induction parts with
  | nil => exact Quiet.pure trivial
  | cons part rest ih =>
    cases part with
    | text s => exact ih.map fun _ _ => trivial
    | value e =>
      refine (quiet_evaluate hr e h).then fun _ _ => ?_
      exact (Quiet.result fun _ _ => trivial).then fun _ _ => ih.map fun _ _ => trivial

theorem quiet_boundValues (hr : run.TakesData k f) (names : List String) {item : Value}
    (h : item.IsData k) : Quiet k f (AreData k) (boundValues run names item) := by
  unfold boundValues
  split
  · exact (Quiet.settle h).map fun _ hv => AreData.cons hv .nil
  · refine (quiet_drain hr h).then fun values hvalues => ?_
    exact Writes.ite _ (Quiet.settleAll hvalues) (Writes.throw _)

theorem quiet_bindNames (hr : run.TakesData k f) (names : List String) {item : Value}
    (h : item.IsData k) {scope : Scope} (hscope : ScopeData k scope) :
    Quiet k f (ScopeData k) (bindNames run names item scope) := by
  refine (quiet_boundValues hr names h).map fun values hvalues => ?_
  refine List.forall_mem_append.mpr ⟨fun b hb => ?_, hscope⟩
  exact hvalues b.2 (List.of_mem_zip (List.mem_reverse.mp hb)).2

/-! ## Operations -/

mutual

theorem writes_execOp (hr : run.TakesData k f) :
    ∀ (op : Op), (∀ o ∈ op.walk, o.isEscaped) → ∀ {scope : Scope}, ScopeData k scope →
      Writes k f (fun text => op.Spells text) (fun _ => True) (execOp run op scope)
  | .literal text, _, _, _ => by
    simp only [execOp, Op.Spells]
    exact Writes.append rfl
  | .escaped e inAttribute, _, _, hscope => by
    simp only [execOp, Op.Spells]
    refine (quiet_evaluate hr e hscope).then fun v hv => ?_
    exact Writes.ite _ (writes_push v) (writes_writeValue hv)
  | .joined parts, _, _, hscope => by
    simp only [execOp, Op.Spells]
    exact (quiet_partTexts hr hscope parts).then fun _ _ => writes_push _
  | .raw e, h, _, _ => absurd (h (.raw e) (Op.mem_walk _)) Bool.false_ne_true
  | .branch branches, h, _, hscope => by
    simp only [execOp, Op.Spells]
    rw [Op.walk] at h
    exact writes_execBranches hr branches (fun o ho => h o (List.mem_cons_of_mem _ ho)) hscope
  | .loop names source body, h, scope, hscope => by
    simp only [execOp, Op.Spells]
    rw [Op.walk] at h
    refine (quiet_evaluate hr source hscope).then fun v hv => ?_
    refine writes_fold hr (Chained.repeated _) (fun _ hitem => ?_) hv trivial
    refine (quiet_bindNames hr names hitem hscope).then fun inner hinner => ?_
    refine (writes_execPlan hr body (fun o ho => h o (List.mem_cons_of_mem _ ho)) hinner).mono
      fun text htext => ?_
    simpa using Repeated.more htext .done
  | .switch subject arms, h, _, hscope => by
    simp only [execOp, Op.Spells]
    rw [Op.walk] at h
    exact (quiet_evaluate hr subject hscope).then fun v _ =>
      writes_execArms hr arms (fun o ho => h o (List.mem_cons_of_mem _ ho)) v hscope
  | .toggle e body, h, _, hscope => by
    simp only [execOp, Op.Spells]
    rw [Op.walk] at h
    refine (quiet_evaluate hr e hscope).then fun v _ => Writes.ite _ ?_ (Writes.pure (.inl rfl) trivial)
    exact (writes_execPlan hr body (fun o ho => h o (List.mem_cons_of_mem _ ho)) hscope).mono
      fun _ => .inr
  | .call reference arguments children, h, _, _ =>
    absurd (h (.call reference arguments children) (Op.mem_walk _)) Bool.false_ne_true

theorem writes_execPlan (hr : run.TakesData k f) :
    ∀ (plan : List Op), (∀ o ∈ walkPlan plan, o.isEscaped) → ∀ {scope : Scope}, ScopeData k scope →
      Writes k f (fun text => spellsPlan plan text) (fun _ => True) (execPlan run plan scope)
  | [], _, _, _ => by
    simp only [execPlan, spellsPlan]
    exact Quiet.pure trivial
  | op :: rest, h, _, hscope => by
    rw [walkPlan] at h
    obtain ⟨hop, hrest⟩ := List.forall_mem_append.mp h
    simp only [execPlan, spellsPlan]
    exact (writes_execOp hr op hop hscope).bind fun _ _ => writes_execPlan hr rest hrest hscope

theorem writes_execBranches (hr : run.TakesData k f) :
    ∀ (branches : List (Option Expr × List Op)), (∀ o ∈ walkBranches branches, o.isEscaped) →
      ∀ {scope : Scope}, ScopeData k scope →
        Writes k f (fun text => text = "" ∨ spellsGuarded branches text) (fun _ => True)
          (execBranches run branches scope)
  | [], _, _, _ => by
    unfold execBranches
    exact Writes.pure (.inl rfl) trivial
  | (none, body) :: rest, h, _, hscope => by
    rw [walkBranches] at h
    unfold execBranches
    exact (writes_execPlan hr body (List.forall_mem_append.mp h).1 hscope).mono fun _ => spells_here
  | (some condition, body) :: rest, h, _, hscope => by
    rw [walkBranches] at h
    obtain ⟨hbody, hrest⟩ := List.forall_mem_append.mp h
    unfold execBranches
    refine (quiet_evaluate hr condition hscope).then fun _ _ => Writes.ite _ ?_ ?_
    · exact (writes_execPlan hr body hbody hscope).mono fun _ => spells_here
    · exact (writes_execBranches hr rest hrest hscope).mono fun _ => spells_later

theorem writes_execArms (hr : run.TakesData k f) :
    ∀ (arms : List (Option Expr × List Op)), (∀ o ∈ walkBranches arms, o.isEscaped) →
      ∀ (v : Value) {scope : Scope}, ScopeData k scope →
        Writes k f (fun text => text = "" ∨ spellsGuarded arms text) (fun _ => True)
          (execArms run arms v scope)
  | [], _, _, _, _ => by
    unfold execArms
    exact Writes.pure (.inl rfl) trivial
  | (none, body) :: rest, h, _, _, hscope => by
    rw [walkBranches] at h
    unfold execArms
    exact (writes_execPlan hr body (List.forall_mem_append.mp h).1 hscope).mono fun _ => spells_here
  | (some pattern, body) :: rest, h, v, _, hscope => by
    rw [walkBranches] at h
    obtain ⟨hbody, hrest⟩ := List.forall_mem_append.mp h
    unfold execArms
    refine (quiet_evaluate hr pattern hscope).then fun _ _ => ?_
    refine (Quiet.result fun _ _ => trivial).then fun _ _ => Writes.ite _ ?_ ?_
    · exact (writes_execPlan hr body hbody hscope).mono fun _ => spells_here
    · exact (writes_execArms hr rest hrest v hscope).mono fun _ => spells_later

end

end Render

end Stencil
