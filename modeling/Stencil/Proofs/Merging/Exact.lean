import Stencil.Proofs.Merging.Removed

/-!
# Merging that removes nothing

If merging a plan removes no block, and no component in it is given children, then the merged plan
does exactly what the plan does: it ends or fails alike, with the same fault, and leaves the same
world behind, which has the text that was appended and what is left of every iterator. Children are
left out because a component gets them as a plan that it may keep; they are merged, too.

Conditions that merging decides must not call `set` where that name is hidden. Otherwise a branch
may be taken that would not be (`execPlan_merge_hidden`).
-/

namespace Stencil

/-- Whether an operation is no component with children. -/
def Op.isChildless : Op → Bool
  | .call _ _ (some _) => false
  | _ => true

/-- No block, but a condition that is unhidden wherever it stands. -/
def Merge.Dropped.Unhidden (context : Scope) : Merge.Dropped → Prop
  | .block .. => False
  | .condition names e => StaysUnhidden names context e

namespace Bond

open Render Merge

theorem growing_allows {run : Runner} (hr : growing.Runners run run) (context : Scope) :
    growing.Allows run run context (·.Unhidden context) where
  runners := hr
  removable d h := by
    cases d with
    | block names op => exact h.elim
    | condition names e => exact h
  join h := growing_trans h (agree_joinLiterals hr _ _)

theorem agree_merge_growing {run : Runner} (hr : growing.Runners run run) {plan : Plan}
    (hcalls : ∀ op ∈ walkPlan plan, op.isChildless) {scope : Scope}
    (hdropped : ∀ d ∈ plan.dropped, d.Unhidden scope) :
    growing.Agree () (execPlan run plan scope) (execPlan run plan.merge scope) := by
  refine agree_merge (growing_allows hr scope) [] plan hdropped ?_ (Extends.refl [] scope) ()
  intro reference arguments body hmem
  exact absurd (hcalls _ hmem) Bool.false_ne_true

end Bond

namespace Render

/-- **A merged plan does what the plan does**, if merging removes no block of it, and no condition that
calls a hidden `set`: whatever else is in the scope and in the iterators, the outcome is the same and
so is the world behind it. -/
theorem execPlan_merge (n : Nat) {plan : Plan} (hcalls : ∀ op ∈ walkPlan plan, op.isChildless)
    {scope : Scope} (hdropped : ∀ d ∈ plan.dropped, d.Unhidden scope) {w : World}
    (hw : w.buffer.room = none) :
    execPlan (performWithin n) plan.merge scope w = execPlan (performWithin n) plan scope w :=
  (Bond.agree_growing.mp
    (Bond.agree_merge_growing (Bond.growing_runners n) hcalls hdropped) w hw).1.symm

set_option maxRecDepth 20000 in
/-- The expression `set()`. -/
def setExpr : Expr := ⟨"set()", .call (.name "set") [], none, rfl⟩

set_option maxRecDepth 20000 in
/-- Two constant conditions and a loop: merging decides the ones and joins literals around them. -/
def mixedPlan : Plan :=
  let yes : Expr := ⟨"True", .lit (.bool true), none, rfl⟩
  let xs : Expr := ⟨"xs", .name "xs", none, rfl⟩
  let x : Expr := ⟨"x", .name "x", none, rfl⟩
  [.literal "<p>", .branch [(some setExpr, [.literal "s"]), (some yes, [.literal "a"]),
      (none, [.literal "b"])],
    .loop ["x"] xs [.escaped x false], .literal "</p>"]

set_option maxRecDepth 20000 in
theorem execPlan_merge_mixed : mixedPlan.merge.length = 3 ∧ mixedPlan.dropped.length = 1 ∧
    execPlan (performWithin 1) mixedPlan.merge [] {} = execPlan (performWithin 1) mixedPlan [] {} := by
  have hdropped : mixedPlan.dropped = [.condition [] setExpr] := rfl
  refine ⟨rfl, rfl, execPlan_merge 1 (List.all_eq_true.mp rfl) ?_ rfl⟩
  rw [hdropped, List.forall_mem_singleton]
  rintro scope ⟨bound, hbound, rfl⟩ -
  rw [List.eq_nil_iff_forall_not_mem.mpr fun b hb => List.not_mem_nil (hbound b hb)]
  rfl

/-- A choice by `set()`. -/
def setPlan : Plan := [.branch [(some setExpr, [.literal "yes"]), (none, [.literal "no"])]]

/-- A scope in which `set` is a function that makes the number 7. -/
def hidingScope : Scope := [("set", .component .seven)]

set_option maxRecDepth 20000 in
/-- **Where `set` is hidden, merging may take the other branch**, although it removes no block. -/
theorem execPlan_merge_hidden :
    setPlan.dropped = [.condition [] setExpr] ∧ (walkPlan setPlan).all Op.isChildless = true ∧
      (planText setPlan hidingScope {}).1 = .ok "yes" ∧
      (planText setPlan.merge hidingScope {}).1 = .ok "no" :=
  ⟨rfl, rfl, rfl, rfl⟩

end Render

end Stencil
