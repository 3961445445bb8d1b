import Stencil.Proofs.Joining
import Stencil.Proofs.Order.Acts

/-!
# Merging keeps the order

The acts of a merged plan are some of those of the plan, in the same order. An `if` counts as itself
when some of its branches are decided: its conditions are then those that remain in question.
-/

namespace Stencil

/-- The conditions that remain in question, up to the first that is certain to hold. -/
def pruneConditions : List (Option Expr) → List (Option Expr)
  | [] => []
  | none :: _ => [none]
  | some condition :: rest =>
    match condition.constant? with
    | none => some condition :: pruneConditions rest
    | some value => if value.truth then [none] else pruneConditions rest

/-- The act of an operation whose branches are pruned. -/
def Act.prune : Act → Act
  | .branch conditions => .branch (pruneConditions conditions)
  | act => act

namespace Merge

theorem acts_cons_literal {op : Op} {text : String} (h : op.literal? = some text) (rest : Plan) :
    acts (op :: rest) = acts rest := by
  rw [Op.eq_literal h, acts_cons, acts_literal, List.nil_append]

theorem acts_joinLiterals (plan : Plan) : acts (joinLiterals plan) = acts plan := by
  have hjoins := joins_joinLiterals plan
  generalize joinLiterals plan = joined at hjoins ⊢
  induction hjoins with
  | nil => rfl
  | @keep op rest joined _ _ _ ih => rw [acts_cons, acts_cons op rest, ih]
  | drop hop _ ih => rw [acts_cons_literal hop, ih]
  | @join _ _ _ _ first second hop _ hnext _ ih =>
    have hjoined : (Op.literal (first ++ second)).literal? = some (first ++ second) := rfl
    rw [acts_cons_literal hnext] at ih
    rw [acts_cons_literal hop, acts_cons_literal hjoined, ih]

theorem map_fst_prune (branches : List (Option Expr × Plan)) :
    (prune branches).map Prod.fst = pruneConditions (branches.map Prod.fst) := by
  fun_induction prune branches with
  | case1 | case2 body rest => rfl
  | case3 condition body rest hnone ih => simp [pruneConditions, hnone, ih]
  | case4 condition body rest value hvalue htruth => simp [pruneConditions, hvalue, htruth]
  | case5 condition body rest value hvalue hfalse ih => simp [pruneConditions, hvalue, hfalse, ih]

theorem actsGuarded_prune (branches : List (Option Expr × Plan)) :
    (actsGuarded (prune branches)).Sublist (actsGuarded branches) := by
  fun_induction prune branches with
  | case1 => exact List.Sublist.refl _
  | case2 body rest | case4 condition body rest =>
    rw [actsGuarded_cons, actsGuarded_nil, List.append_nil, actsGuarded_cons]
    exact List.sublist_append_left _ _
  | case3 condition body rest _ ih =>
    rw [actsGuarded_cons, actsGuarded_cons]
    exact (List.Sublist.refl _).append ih
  | case5 condition body rest _ _ _ ih =>
    rw [actsGuarded_cons]
    exact ih.trans (List.sublist_append_right _ _)

theorem acts_unlessIdle (op : Op) : (acts (unlessIdle op)).Sublist (acts [op]) := by
  unfold unlessIdle
  split
  · rw [acts_nil]
    exact List.nil_sublist _
  · exact List.Sublist.refl _

/-- What remains of a branch does what the branch does with its conditions pruned, or less. -/
theorem acts_resolve (branches : List (Option Expr × Plan)) :
    (acts (resolve branches)).Sublist
      (.branch (pruneConditions (branches.map Prod.fst)) :: actsGuarded branches) := by
  have hprune := actsGuarded_prune branches
  unfold resolve
  split
  · rw [acts_nil]
    exact List.nil_sublist _
  · next body rest hpruned =>
    rw [hpruned, actsGuarded_cons] at hprune
    exact ((List.sublist_append_left _ _).trans hprune).cons _
  · refine (acts_unlessIdle _).trans ?_
    rw [acts_branch, map_fst_prune]
    exact hprune.cons_cons _

mutual

theorem acts_simplifyOp (op : Op) :
    (acts (simplifyOp op)).Sublist ((acts [op]).map Act.prune) := by
  match op with
  | .branch branches =>
    obtain ⟨hconditions, hbodies⟩ := acts_mergeGuarded branches
    rw [simplifyOp, acts_branch, List.map_cons]
    refine (acts_resolve _).trans ?_
    rw [hconditions]
    exact hbodies.cons_cons _
  | .loop names source body =>
    rw [simplifyOp, acts_loop, List.map_cons]
    refine (acts_unlessIdle _).trans ?_
    rw [acts_loop, acts_joinLiterals]
    exact (acts_simplify body).cons_cons _
  | .switch subject arms =>
    obtain ⟨hpatterns, hbodies⟩ := acts_mergeGuarded arms
    rw [simplifyOp, acts_switch, List.map_cons]
    refine (acts_unlessIdle _).trans ?_
    rw [acts_switch, hpatterns]
    exact hbodies.cons_cons _
  | .toggle expr body =>
    rw [simplifyOp, acts_toggle]
    refine (acts_unlessIdle _).trans ?_
    rw [acts_toggle, acts_joinLiterals]
    exact acts_simplify body
  | .call reference arguments (some body) =>
    rw [simplifyOp, acts_call, acts_call, List.map_cons]
    simp only [Option.map_some, Option.getD_some]
    rw [acts_joinLiterals]
    exact (acts_simplify body).cons_cons _
  | .call reference arguments none => simp [simplifyOp, Act.prune]
  | .literal text => simp [simplifyOp]
  | .escaped e true => simp [simplifyOp]
  | .escaped e false => simp [simplifyOp, Act.prune]
  | .joined parts => simp [simplifyOp]
  | .raw e => simp [simplifyOp, Act.prune]

theorem acts_simplify (plan : List Op) :
    (acts (simplify plan)).Sublist ((acts plan).map Act.prune) := by
  match plan with
  | [] => simp [simplify]
  | op :: rest =>
    rw [simplify, acts_append, acts_cons, List.map_append]
    exact (acts_simplifyOp op).append (acts_simplify rest)

theorem acts_mergeGuarded (branches : List (Option Expr × List Op)) :
    (mergeGuarded branches).map Prod.fst = branches.map Prod.fst ∧
      (actsGuarded (mergeGuarded branches)).Sublist ((actsGuarded branches).map Act.prune) := by
  match branches with
  | [] => simp [mergeGuarded]
  | (condition, body) :: rest =>
    obtain ⟨hconditions, hrest⟩ := acts_mergeGuarded rest
    rw [mergeGuarded, List.map_cons, List.map_cons, hconditions, actsGuarded_cons, actsGuarded_cons,
      List.map_append, acts_joinLiterals]
    exact ⟨rfl, (acts_simplify body).append hrest⟩

end

end Merge

/-- **Merging keeps the order of acts**: those of the merged plan are some of those of the plan, in
the same order, with conditions pruned. -/
theorem Plan.acts_merge (plan : Plan) : (acts plan.merge).Sublist ((acts plan).map Act.prune) := by
  rw [merge, Merge.acts_joinLiterals]
  exact Merge.acts_simplify plan

end Stencil
