import Stencil.Proofs.Merging.Exact
import Stencil.Proofs.Merging.Normal
import Stencil.Proofs.Results

/-!
# Merged start tags

What stands in a start tag is never removed when a plan is merged: texts and values stay, and a
toggle holds the name of its attribute, which is not empty with the blank before it. So **a merged
start tag does what the tag does** (`execPlan_merge_startTag`).
-/

namespace Stencil

open Merge

namespace Plan

/-- Merging the plan removes no block, and no component in it is given children. -/
structure Lasts (plan : Plan) : Prop where
  dropped : plan.dropped = []
  childless : ∀ op ∈ walkPlan plan, op.isChildless

theorem droppedPlan_append (names : List String) (p q : Plan) :
    droppedPlan names (p ++ q) = droppedPlan names p ++ droppedPlan names q := by
  induction p with
  | nil => rfl
  | cons op p ih => rw [List.cons_append, droppedPlan, droppedPlan, ih, List.append_assoc]

theorem Lasts.append {p q : Plan} (hp : p.Lasts) (hq : q.Lasts) : Lasts (p ++ q) := by
  constructor
  · rw [Plan.dropped, droppedPlan_append, show droppedPlan [] p = [] from hp.dropped]
    exact hq.dropped
  · rw [walkPlan_append, List.forall_mem_append]
    exact ⟨hp.childless, hq.childless⟩

theorem lasts_literal (s : String) : Lasts [.literal s] :=
  ⟨rfl, by simp [walkPlan, Op.walk, Op.isChildless]⟩

theorem lasts_escaped (e : Expr) (inAttribute : Bool) : Lasts [.escaped e inAttribute] :=
  ⟨rfl, by simp [walkPlan, Op.walk, Op.isChildless]⟩

theorem lasts_joined (parts : List Part) : Lasts [.joined parts] :=
  ⟨rfl, by simp [walkPlan, Op.walk, Op.isChildless]⟩

/-- The plan of a toggle is not empty, so the toggle stays. -/
theorem lasts_toggle (e : Expr) {s : String} (hs : s.isEmpty = false) :
    Lasts [.toggle e [.literal s]] := by
  constructor
  · have hjoined : joinLiterals (simplify [.literal s]) = [.literal s] := by
      simp [simplify, simplifyOp, joinLiterals, Op.literal?, hs]
    simp [Plan.dropped, droppedPlan, droppedOp, hjoined, ifIdle, Op.plans]
  · simp [walkPlan, Op.walk, Op.isChildless]

end Plan

namespace Generate

open Plan

theorem lasts_attributeValue {c : Content} {op : Op} (h : attributeValue c = .ok op) :
    Lasts [op] := by
  cases c with
  | literal text =>
    cases h
    exact lasts_literal _
  | dynamic e raw =>
    cases h
    exact lasts_escaped e true
  | joined parts =>
    obtain ⟨ps, -, h⟩ := bind_eq_ok.mp h
    cases h
    unfold joinParts
    split
    · exact lasts_literal _
    · exact lasts_joined _
  | toggle | unknown => cases h

theorem lasts_attributeOps {a : Attribute} {ops : Plan} (h : attributeOps a = .ok ops) :
    ops.Lasts := by
  rcases attributeOps_eq_ok h with rfl | ⟨e, rfl⟩ | ⟨op, hop, rfl⟩
  · exact lasts_literal _
  · exact lasts_toggle e (by simp)
  · exact (lasts_literal _).append ((lasts_attributeValue hop).append (lasts_literal _))

theorem lasts_attributesOps {attributes : List Attribute} {ops : Plan}
    (h : attributesOps attributes = .ok ops) : ops.Lasts := by
  induction attributes generalizing ops with
  | nil =>
    cases h
    exact ⟨rfl, nofun⟩
  | cons a rest ih =>
    rw [attributesOps] at h
    obtain ⟨first, hfirst, h⟩ := bind_eq_ok.mp h
    obtain ⟨others, hothers, h⟩ := bind_eq_ok.mp h
    rw [pure_eq_ok] at h
    exact h ▸ (lasts_attributeOps hfirst).append (ih hothers)

end Generate

/-- **A merged start tag does what the tag does**, whatever its attributes are. -/
theorem Render.execPlan_merge_startTag (n : Nat) {name : String} {attributes : List Attribute}
    {place : Option Location} {ops : Plan}
    (h : Generate.node (.element name attributes [] true place) = .ok ops) (scope : Scope)
    {w : World} (hw : w.buffer.room = none) :
    execPlan (performWithin n) ops.merge scope w = execPlan (performWithin n) ops scope w := by
  rw [Generate.node] at h
  obtain ⟨inTag, hinTag, h⟩ := bind_eq_ok.mp h
  cases h
  have hlasts : Plan.Lasts (.literal ("<" ++ name) :: inTag ++ [.literal ">"]) :=
    (Plan.lasts_literal _).append
      ((Generate.lasts_attributesOps hinTag).append (Plan.lasts_literal _))
  have hdropped : ∀ d ∈ Plan.dropped (.literal ("<" ++ name) :: inTag ++ [.literal ">"]),
      d.Unhidden scope := by
    rw [hlasts.dropped]
    exact List.forall_mem_nil _
  exact (Bond.agree_growing.mp (Bond.agree_merge_growing (Bond.growing_runners n)
    hlasts.childless hdropped) w hw).1.symm

end Stencil
