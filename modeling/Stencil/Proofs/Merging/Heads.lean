import Stencil.Plan.Walk
import Stencil.Proofs.Joining

/-!
# Merging makes nothing new

An operation without its texts and without the plans it holds is its head. The heads of a merged
plan, at all depths, are heads of the plan.
-/

namespace Stencil

/-- An operation without the text that is known and without the plans it holds. -/
def Op.head : Op → Op
  | .literal _ => .literal ""
  | .branch _ => .branch []
  | .loop names source _ => .loop names source []
  | .switch subject _ => .switch subject []
  | .toggle expr _ => .toggle expr []
  | .call reference arguments _ => .call reference arguments none
  | op => op

/-- The heads of all operations of a plan. -/
def heads (plan : Plan) : List Op :=
  (walkPlan plan).map Op.head

/-- The heads of all operations of guarded plans. -/
def headsGuarded (branches : List (Option Expr × Plan)) : List Op :=
  (walkBranches branches).map Op.head

@[simp] theorem heads_nil : heads [] = [] := by
  simp [heads, walkPlan]

@[simp] theorem heads_cons (op : Op) (rest : Plan) :
    heads (op :: rest) = op.walk.map Op.head ++ heads rest := by
  simp [heads, walkPlan]

@[simp] theorem headsGuarded_nil : headsGuarded [] = [] := by
  simp [headsGuarded, walkBranches]

@[simp] theorem headsGuarded_cons (condition : Option Expr) (body : Plan)
    (rest : List (Option Expr × Plan)) :
    headsGuarded ((condition, body) :: rest) = heads body ++ headsGuarded rest := by
  simp [headsGuarded, heads, walkBranches]

theorem heads_append (p q : Plan) : heads (p ++ q) = heads p ++ heads q := by
  induction p with
  | nil => simp
  | cons op p ih => simp [ih]

theorem heads_branch (branches : List (Option Expr × Plan)) :
    heads [.branch branches] = .branch [] :: headsGuarded branches := by
  rw [heads_cons, heads_nil, List.append_nil]
  rfl

theorem heads_loop (names : List String) (source : Expr) (body : Plan) :
    heads [.loop names source body] = .loop names source [] :: heads body := by
  rw [heads_cons, heads_nil, List.append_nil]
  rfl

theorem heads_switch (subject : Expr) (arms : List (Option Expr × Plan)) :
    heads [.switch subject arms] = .switch subject [] :: headsGuarded arms := by
  rw [heads_cons, heads_nil, List.append_nil]
  rfl

theorem heads_toggle (expr : Expr) (body : Plan) :
    heads [.toggle expr body] = .toggle expr [] :: heads body := by
  rw [heads_cons, heads_nil, List.append_nil]
  rfl

theorem heads_call (reference : Expr) (arguments : List (String × Content)) (body : Plan) :
    heads [.call reference arguments (some body)] = .call reference arguments none :: heads body := by
  rw [heads_cons, heads_nil, List.append_nil]
  rfl

namespace Merge

theorem heads_literal {op : Op} (h : op.literal?.isSome) : op.walk.map Op.head = [.literal ""] := by
  cases op <;> simp_all [Op.literal?, Op.walk, Op.head]

theorem heads_joinLiterals (plan : Plan) : heads (joinLiterals plan) ⊆ heads plan := by
  have hjoins := joins_joinLiterals plan
  generalize joinLiterals plan = joined at hjoins ⊢
  induction hjoins with
  | nil => exact List.Subset.refl _
  | keep _ _ _ ih =>
    rw [heads_cons, heads_cons]
    exact List.append_subset.mpr ⟨List.subset_append_left _ _,
      List.Subset.trans ih (List.subset_append_right _ _)⟩
  | drop _ _ ih =>
    rw [heads_cons]
    exact List.Subset.trans ih (List.subset_append_right _ _)
  | @join op next _ _ _ _ _ _ hnext _ ih =>
    -- the joined literal has the head of the one that it took in
    have hhead : next.walk.map Op.head = [.literal ""] := heads_literal (by simp [hnext])
    have hjoined (text : String) : (Op.literal text).walk.map Op.head = [.literal ""] :=
      heads_literal rfl
    rw [heads_cons, hhead] at ih
    rw [heads_cons, heads_cons, hjoined]
    exact List.Subset.trans ih (List.subset_append_right _ _)

theorem heads_unlessIdle (op : Op) : heads (unlessIdle op) ⊆ heads [op] := by
  unfold unlessIdle
  split
  · simp
  · exact List.Subset.refl _

theorem headsGuarded_prune (branches : List (Option Expr × Plan)) :
    headsGuarded (prune branches) ⊆ headsGuarded branches := by
  fun_induction prune branches with
  | case1 => exact List.Subset.refl _
  | case2 body rest => simp
  | case3 condition body rest _ ih =>
    rw [headsGuarded_cons, headsGuarded_cons]
    exact List.append_subset.mpr ⟨List.subset_append_left _ _,
      List.Subset.trans ih (List.subset_append_right _ _)⟩
  | case4 condition body rest => simp
  | case5 condition body rest _ _ _ ih =>
    rw [headsGuarded_cons]
    exact List.Subset.trans ih (List.subset_append_right _ _)

theorem heads_resolve (branches : List (Option Expr × Plan)) :
    heads (resolve branches) ⊆ .branch [] :: headsGuarded branches := by
  have hprune := headsGuarded_prune branches
  unfold resolve
  split
  · simp
  · next body _ hp =>
    rw [hp, headsGuarded_cons] at hprune
    have hbody : heads body ⊆ headsGuarded branches :=
      List.Subset.trans (List.subset_append_left _ _) hprune
    exact List.Subset.trans hbody (List.subset_cons_self _ _)
  · refine List.Subset.trans (heads_unlessIdle _) ?_
    rw [heads_branch]
    exact List.cons_subset_cons _ hprune

mutual

theorem heads_simplifyOp (op : Op) : heads (simplifyOp op) ⊆ heads [op] :=
  match op with
  | .branch branches => by
    rw [simplifyOp, heads_branch]
    exact List.Subset.trans (heads_resolve _)
      (List.cons_subset_cons _ (heads_mergeGuarded branches))
  | .loop names source body => by
    rw [simplifyOp, heads_loop]
    refine List.Subset.trans (heads_unlessIdle _) ?_
    rw [heads_loop]
    exact List.cons_subset_cons _
      (List.Subset.trans (heads_joinLiterals _) (heads_simplify body))
  | .switch subject arms => by
    rw [simplifyOp, heads_switch]
    refine List.Subset.trans (heads_unlessIdle _) ?_
    rw [heads_switch]
    exact List.cons_subset_cons _ (heads_mergeGuarded arms)
  | .toggle expr body => by
    rw [simplifyOp, heads_toggle]
    refine List.Subset.trans (heads_unlessIdle _) ?_
    rw [heads_toggle]
    exact List.cons_subset_cons _
      (List.Subset.trans (heads_joinLiterals _) (heads_simplify body))
  | .call reference arguments (some body) => by
    rw [simplifyOp, heads_call, heads_call]
    exact List.cons_subset_cons _
      (List.Subset.trans (heads_joinLiterals _) (heads_simplify body))
  | .call _ _ none | .literal _ | .escaped .. | .joined _ | .raw _ => by
    rw [simplifyOp]
    · exact List.Subset.refl _
    all_goals nofun

theorem heads_simplify (plan : List Op) : heads (simplify plan) ⊆ heads plan :=
  match plan with
  | [] => by rw [simplify]; exact List.Subset.refl _
  | op :: rest => by
    have hop := heads_simplifyOp op
    rw [heads_cons, heads_nil, List.append_nil] at hop
    rw [simplify, heads_append, heads_cons]
    exact List.append_subset.mpr
      ⟨List.Subset.trans hop (List.subset_append_left _ _),
        List.Subset.trans (heads_simplify rest) (List.subset_append_right _ _)⟩

theorem heads_mergeGuarded (branches : List (Option Expr × List Op)) :
    headsGuarded (mergeGuarded branches) ⊆ headsGuarded branches :=
  match branches with
  | [] => by rw [mergeGuarded]; exact List.Subset.refl _
  | (condition, body) :: rest => by
    rw [mergeGuarded, headsGuarded_cons, headsGuarded_cons]
    have hbody : heads (joinLiterals (simplify body)) ⊆ heads body :=
      List.Subset.trans (heads_joinLiterals _) (heads_simplify body)
    exact List.append_subset.mpr
      ⟨List.Subset.trans hbody (List.subset_append_left _ _),
        List.Subset.trans (heads_mergeGuarded rest) (List.subset_append_right _ _)⟩

end

end Merge

/-- **Merging makes nothing new**: every head of a merged plan is a head of the plan. -/
theorem Plan.heads_merge (plan : Plan) : heads plan.merge ⊆ heads plan :=
  List.Subset.trans (Merge.heads_joinLiterals _) (Merge.heads_simplify plan)

end Stencil
