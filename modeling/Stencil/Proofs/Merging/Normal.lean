import Stencil.Plan.Walk
import Stencil.Proofs.Joining

/-!
# The normal form of plans

A plan is normal if merging finds nothing to do in it: at every depth there is no empty literal,
no literal stands next to another, no condition of a branch is a constant, and every block has a
plan to run. The form is said on its own, as one condition on a list of operations and one on an
operation by itself, and then merging is shown to lead to it and to stop there.
-/

namespace Stencil

/-! ## The form -/

/-- No literal of the plan is empty, and no two literals are neighbours. -/
structure Plan.Joined (plan : Plan) : Prop where
  not_empty : ∀ op ∈ plan, op.literal? ≠ some ""
  not_adjacent : plan.IsChain fun a b => a.literal? = none ∨ b.literal? = none

/-- Branches of which none can be decided before they are run: there is a first condition, only the
last branch may lack one, and no condition is a constant. -/
structure Undecided (branches : List (Option Expr × Plan)) : Prop where
  first : ∃ b ∈ branches.head?, b.1.isSome
  inner : ∀ b ∈ branches.dropLast, b.1.isSome
  unknown : ∀ b ∈ branches, ∀ condition ∈ b.1, condition.constant? = none

/-- A block of control has a plan that is not empty, and a branch is not decided. -/
def Op.IsSettled : Op → Prop
  | .branch branches => Undecided branches ∧ ∃ b ∈ branches, b.2 ≠ []
  | .loop _ _ body => body ≠ []
  | .switch _ arms => ∃ arm ∈ arms, arm.2 ≠ []
  | .toggle _ body => body ≠ []
  | _ => True

/-- An operation that is settled, with plans whose literals are joined. -/
structure Op.IsNormal (op : Op) : Prop where
  settled : op.IsSettled
  joined : ∀ plan ∈ op.plans, plan.Joined

/-- A plan that is in normal form, at every depth. -/
structure Plan.IsNormal (plan : Plan) : Prop where
  joined : plan.Joined
  ops : ∀ op ∈ walkPlan plan, op.IsNormal

/-! ## Operations at any depth -/

theorem mem_walkPlan {o : Op} {plan : Plan} : o ∈ walkPlan plan ↔ ∃ op ∈ plan, o ∈ op.walk := by
  induction plan with
  | nil => simp [walkPlan]
  | cons op rest ih => simp [walkPlan, ih]

theorem mem_walkBranches {o : Op} {branches : List (Option Expr × Plan)} :
    o ∈ walkBranches branches ↔ ∃ plan ∈ branches.map Prod.snd, o ∈ walkPlan plan := by
  induction branches with
  | nil => simp [walkBranches]
  | cons b rest ih => rw [walkBranches, List.mem_append, ih, List.map_cons, List.exists_mem_cons_iff]

/-- What an operation holds, it holds in one of its plans. -/
theorem Op.mem_walk_iff {o op : Op} :
    o ∈ op.walk ↔ o = op ∨ ∃ plan ∈ op.plans, o ∈ walkPlan plan := by
  cases op with
  | branch branches => rw [Op.walk, List.mem_cons, mem_walkBranches, Op.plans]
  | switch subject arms => rw [Op.walk, List.mem_cons, mem_walkBranches, Op.plans]
  | loop names source body => simp [Op.walk, Op.plans]
  | toggle expr body => simp [Op.walk, Op.plans]
  | call reference arguments children => cases children <;> simp [Op.walk, Op.plans]
  | literal | escaped | joined | raw => simp [Op.walk, Op.plans]

theorem walkPlan_append (p q : Plan) : walkPlan (p ++ q) = walkPlan p ++ walkPlan q := by
  induction p with
  | nil => simp [walkPlan]
  | cons op rest ih => simp [walkPlan, ih]

theorem walkPlan_single (op : Op) : walkPlan [op] = op.walk := by
  simp [walkPlan]

/-- What a plan holds is in normal form, its own literals aside. -/
def Plan.AllNormal (plan : Plan) : Prop :=
  ∀ op ∈ walkPlan plan, op.IsNormal

theorem Plan.AllNormal.nil : Plan.AllNormal [] := by
  intro o ho
  simp [walkPlan] at ho

theorem Plan.AllNormal.append {p q : Plan} (hp : p.AllNormal) (hq : q.AllNormal) :
    (p ++ q).AllNormal := by
  intro o ho
  rw [walkPlan_append] at ho
  rcases List.mem_append.mp ho with ho | ho
  · exact hp o ho
  · exact hq o ho

/-- An operation is in normal form with all it holds if it is itself and its plans are. -/
theorem Plan.AllNormal.single {op : Op} (h : op.IsNormal)
    (hplans : ∀ plan ∈ op.plans, plan.AllNormal) : Plan.AllNormal [op] := by
  intro o ho
  rw [walkPlan_single] at ho
  rcases Op.mem_walk_iff.mp ho with rfl | ⟨plan, hplan, ho⟩
  · exact h
  · exact hplans plan hplan o ho

theorem Plan.AllNormal.literal (text : String) : Plan.AllNormal [.literal text] :=
  .single ⟨trivial, List.forall_mem_nil _⟩ (List.forall_mem_nil _)

theorem Plan.AllNormal.head {op : Op} {rest : Plan} (h : Plan.AllNormal (op :: rest)) :
    Plan.AllNormal [op] := by
  intro o ho
  rw [walkPlan_single] at ho
  exact h o (mem_walkPlan.mpr ⟨op, List.mem_cons_self, ho⟩)

theorem Plan.AllNormal.tail {op : Op} {rest : Plan} (h : Plan.AllNormal (op :: rest)) :
    rest.AllNormal := by
  intro o ho
  obtain ⟨op', hop, ho⟩ := mem_walkPlan.mp ho
  exact h o (mem_walkPlan.mpr ⟨op', List.mem_cons_of_mem _ hop, ho⟩)

/-! ## Joining literals -/

namespace Merge

theorem joined_joinLiterals (plan : Plan) : (joinLiterals plan).Joined := by
  obtain ⟨hempty, hchain⟩ := (joins_joinLiterals plan).separated fun _ _ => rfl
  exact ⟨hempty, hchain⟩

theorem allNormal_joinLiterals {plan : Plan} (h : plan.AllNormal) :
    (joinLiterals plan).AllNormal := by
  intro o ho
  obtain ⟨op, hop, ho⟩ := mem_walkPlan.mp ho
  rcases (joins_joinLiterals plan).mem_or hop with hop | ⟨-, text, rfl⟩
  · exact h o (mem_walkPlan.mpr ⟨op, hop, ho⟩)
  · rw [← walkPlan_single] at ho
    exact Plan.AllNormal.literal text o ho

/-- Where the literals of a plan are joined, joining them changes nothing. -/
theorem joinLiterals_of_joined {plan : Plan} (h : plan.Joined) : joinLiterals plan = plan :=
  (joins_joinLiterals plan).eq_of_separated h.not_empty h.not_adjacent

/-! ## Deciding branches -/

theorem mem_prune {branches : List (Option Expr × Plan)} {b : Option Expr × Plan}
    (h : b ∈ prune branches) : ∃ b' ∈ branches, b'.2 = b.2 := by
  have hlater {branch : Option Expr × Plan} {rest : List (Option Expr × Plan)}
      (h : ∃ b' ∈ rest, b'.2 = b.2) : ∃ b' ∈ branch :: rest, b'.2 = b.2 :=
    h.imp fun _ hb => ⟨List.mem_cons_of_mem _ hb.1, hb.2⟩
  fun_induction prune branches with
  | case1 => cases h
  | case2 body rest | case4 condition body rest =>
    obtain rfl := List.mem_singleton.mp h
    exact ⟨_, List.mem_cons_self, rfl⟩
  | case3 condition body rest _ ih =>
    rcases List.mem_cons.mp h with rfl | h
    · exact ⟨_, List.mem_cons_self, rfl⟩
    · exact hlater (ih h)
  | case5 condition body rest _ _ _ ih => exact hlater (ih h)

/-- No condition that remains is a constant. -/
theorem unknown_prune (branches : List (Option Expr × Plan)) :
    ∀ b ∈ prune branches, ∀ condition ∈ b.1, condition.constant? = none := by
  fun_induction prune branches with
  | case1 => exact List.forall_mem_nil _
  | case2 body rest | case4 condition body rest => simp
  | case3 condition body rest hnone ih =>
    refine List.forall_mem_cons.mpr ⟨fun c hc => ?_, ih⟩
    cases hc
    exact hnone
  | case5 condition body rest _ _ _ ih => exact ih

/-- Only the last branch that remains may lack a condition. -/
theorem inner_prune (branches : List (Option Expr × Plan)) :
    ∀ b ∈ (prune branches).dropLast, b.1.isSome := by
  fun_induction prune branches with
  | case1 | case2 body rest | case4 condition body rest => exact List.forall_mem_nil _
  | case3 condition body rest _ ih =>
    cases hrest : prune rest with
    | nil => exact List.forall_mem_nil _
    | cons next more =>
      rw [hrest] at ih
      exact List.forall_mem_cons.mpr ⟨rfl, ih⟩
  | case5 condition body rest _ _ _ ih => exact ih

/-- Branches in question are left as they are. -/
theorem prune_of_undecided {branches : List (Option Expr × Plan)}
    (hinner : ∀ b ∈ branches.dropLast, b.1.isSome)
    (hunknown : ∀ b ∈ branches, ∀ condition ∈ b.1, condition.constant? = none) :
    prune branches = branches := by
  induction branches with
  | nil => rfl
  | cons branch rest ih =>
    obtain ⟨hfirst, hothers⟩ := List.forall_mem_cons.mp hunknown
    obtain ⟨condition | condition, body⟩ := branch
    · cases rest with
      | nil => rfl
      | cons next more => exact absurd (hinner _ List.mem_cons_self) (by simp)
    · have hrest : ∀ b ∈ rest.dropLast, b.1.isSome := by
        intro b hb
        cases rest with
        | nil => cases hb
        | cons next more => exact hinner b (List.mem_cons_of_mem _ hb)
      rw [prune, hfirst condition rfl]
      exact congrArg (_ :: ·) (ih hrest hothers)

/-! ## One step of merging -/

theorem unlessIdle_of_busy {op : Op} (h : ∃ plan ∈ op.plans, plan ≠ []) : unlessIdle op = [op] := by
  obtain ⟨plan, hplan, hne⟩ := h
  unfold unlessIdle
  rw [if_neg]
  intro hall
  have hempty := List.all_eq_true.mp hall plan hplan
  exact hne (List.isEmpty_iff.mp hempty)

theorem allNormal_unlessIdle {op : Op} (hplans : ∀ plan ∈ op.plans, plan.IsNormal)
    (hop : (∃ plan ∈ op.plans, plan ≠ []) → op.IsSettled) : (unlessIdle op).AllNormal := by
  -- an operation that stays has a plan to run, which is what settles it
  by_cases hbusy : ∃ plan ∈ op.plans, plan ≠ []
  · rw [unlessIdle_of_busy hbusy]
    exact .single ⟨hop hbusy, fun plan hplan => (hplans plan hplan).joined⟩
      fun plan hplan => (hplans plan hplan).ops
  · have hidle : op.plans.all List.isEmpty = true := by
      rw [List.all_eq_true]
      intro plan hplan
      by_contra hne
      exact hbusy ⟨plan, hplan, fun h => hne (List.isEmpty_iff.mpr h)⟩
    rw [unlessIdle, if_pos hidle]
    exact .nil

theorem allNormal_resolve {branches : List (Option Expr × Plan)}
    (h : ∀ b ∈ branches, b.2.IsNormal) : (resolve branches).AllNormal := by
  have hbodies : ∀ b ∈ prune branches, b.2.IsNormal := by
    intro b hb
    obtain ⟨b', hb', heq⟩ := mem_prune hb
    exact heq ▸ h b' hb'
  have hinner := inner_prune branches
  have hunknown := unknown_prune branches
  unfold resolve
  split
  · exact .nil
  · next body _ hp =>
    rw [hp] at hbodies
    exact (hbodies _ List.mem_cons_self).ops
  · next hne hcondition =>
    -- the first branch that remains has a condition
    have hfirst : ∃ b ∈ (prune branches).head?, b.1.isSome := by
      cases hp : prune branches with
      | nil => exact absurd hp hne
      | cons b rest =>
        refine ⟨b, rfl, ?_⟩
        obtain ⟨condition | condition, body⟩ := b
        · exact absurd hp (hcondition body rest)
        · rfl
    have hplans : ∀ plan ∈ (Op.branch (prune branches)).plans, plan.IsNormal :=
      List.forall_mem_map.mpr hbodies
    refine allNormal_unlessIdle hplans fun hbusy => ?_
    obtain ⟨plan, hplan, hne⟩ := hbusy
    obtain ⟨b, hb, rfl⟩ := List.mem_map.mp hplan
    exact ⟨⟨hfirst, hinner, hunknown⟩, b, hb, hne⟩

theorem resolve_of_undecided {branches : List (Option Expr × Plan)} (h : Undecided branches)
    (hbusy : ∃ b ∈ branches, b.2 ≠ []) : resolve branches = [.branch branches] := by
  have hplans : ∃ plan ∈ (Op.branch branches).plans, plan ≠ [] := by
    obtain ⟨b, hb, hne⟩ := hbusy
    exact ⟨b.2, List.mem_map_of_mem hb, hne⟩
  obtain ⟨first, hfirst, hsome⟩ := h.first
  unfold resolve
  rw [prune_of_undecided h.inner h.unknown]
  cases branches with
  | nil => cases hfirst
  | cons b rest =>
    have hb : b.1.isSome := by
      cases hfirst
      exact hsome
    obtain ⟨condition | condition, body⟩ := b
    · cases hb
    · exact unlessIdle_of_busy hplans

/-! ## Merging -/

theorem isNormal_joinLiterals {plan : Plan} (h : plan.AllNormal) : (joinLiterals plan).IsNormal :=
  ⟨joined_joinLiterals plan, allNormal_joinLiterals h⟩

mutual

theorem allNormal_simplifyOp (op : Op) : (simplifyOp op).AllNormal := by
  match op with
  | .branch branches =>
    rw [simplifyOp]
    exact allNormal_resolve (isNormal_mergeGuarded branches)
  | .loop names source body =>
    have hbody := isNormal_joinLiterals (allNormal_simplify body)
    rw [simplifyOp]
    refine allNormal_unlessIdle (List.forall_mem_singleton.mpr hbody) fun hbusy => ?_
    obtain ⟨plan, hplan, hne⟩ := hbusy
    exact List.mem_singleton.mp hplan ▸ hne
  | .switch subject arms =>
    have harms := isNormal_mergeGuarded arms
    rw [simplifyOp]
    have hplans : ∀ plan ∈ (Op.switch subject (mergeGuarded arms)).plans, plan.IsNormal :=
      List.forall_mem_map.mpr harms
    refine allNormal_unlessIdle hplans fun hbusy => ?_
    obtain ⟨plan, hplan, hne⟩ := hbusy
    obtain ⟨arm, harm, rfl⟩ := List.mem_map.mp hplan
    exact ⟨arm, harm, hne⟩
  | .toggle expr body =>
    have hbody := isNormal_joinLiterals (allNormal_simplify body)
    rw [simplifyOp]
    refine allNormal_unlessIdle (List.forall_mem_singleton.mpr hbody) fun hbusy => ?_
    obtain ⟨plan, hplan, hne⟩ := hbusy
    exact List.mem_singleton.mp hplan ▸ hne
  | .call reference arguments (some body) =>
    have hbody := isNormal_joinLiterals (allNormal_simplify body)
    rw [simplifyOp]
    exact .single ⟨trivial, List.forall_mem_singleton.mpr hbody.joined⟩
      (List.forall_mem_singleton.mpr hbody.ops)
  | .call _ _ none | .literal _ | .escaped .. | .joined _ | .raw _ =>
    rw [simplifyOp]
    · exact .single ⟨trivial, List.forall_mem_nil _⟩ (List.forall_mem_nil _)
    all_goals nofun

theorem allNormal_simplify (plan : List Op) : Plan.AllNormal (simplify plan) := by
  match plan with
  | [] =>
    rw [simplify]
    exact .nil
  | op :: rest =>
    rw [simplify]
    exact (allNormal_simplifyOp op).append (allNormal_simplify rest)

theorem isNormal_mergeGuarded (branches : List (Option Expr × List Op)) :
    ∀ b ∈ mergeGuarded branches, b.2.IsNormal := by
  match branches with
  | [] =>
    rw [mergeGuarded]
    exact List.forall_mem_nil _
  | (condition, body) :: rest =>
    rw [mergeGuarded]
    exact List.forall_mem_cons.mpr
      ⟨isNormal_joinLiterals (allNormal_simplify body), isNormal_mergeGuarded rest⟩

end

mutual

theorem simplifyOp_of_normal (op : Op) (h : ∀ o ∈ op.walk, o.IsNormal) : simplifyOp op = [op] := by
  have hop : op.IsNormal := h op (Op.mem_walk_iff.mpr (.inl rfl))
  match op with
  | .branch branches =>
    rw [Op.walk, List.forall_mem_cons] at h
    obtain ⟨hundecided, hbusy⟩ := hop.settled
    rw [simplifyOp, mergeGuarded_of_normal branches (List.forall_mem_map.mp hop.joined) h.2]
    exact resolve_of_undecided hundecided hbusy
  | .loop names source body =>
    rw [Op.walk, List.forall_mem_cons] at h
    have hbody := hop.joined body (List.mem_singleton_self _)
    rw [simplifyOp, simplify_of_normal body h.2, joinLiterals_of_joined hbody]
    exact unlessIdle_of_busy ⟨body, List.mem_singleton_self _, hop.settled⟩
  | .switch subject arms =>
    rw [Op.walk, List.forall_mem_cons] at h
    obtain ⟨arm, harm, hne⟩ := hop.settled
    rw [simplifyOp, mergeGuarded_of_normal arms (List.forall_mem_map.mp hop.joined) h.2]
    exact unlessIdle_of_busy ⟨arm.2, List.mem_map_of_mem harm, hne⟩
  | .toggle expr body =>
    rw [Op.walk, List.forall_mem_cons] at h
    have hbody := hop.joined body (List.mem_singleton_self _)
    rw [simplifyOp, simplify_of_normal body h.2, joinLiterals_of_joined hbody]
    exact unlessIdle_of_busy ⟨body, List.mem_singleton_self _, hop.settled⟩
  | .call reference arguments (some body) =>
    rw [Op.walk, List.forall_mem_cons] at h
    have hbody := hop.joined body (List.mem_singleton_self _)
    rw [simplifyOp, simplify_of_normal body h.2, joinLiterals_of_joined hbody]
  | .call _ _ none | .literal _ | .escaped .. | .joined _ | .raw _ =>
    rw [simplifyOp]
    all_goals nofun

theorem simplify_of_normal (plan : List Op) (h : Plan.AllNormal plan) : simplify plan = plan := by
  match plan with
  | [] => rw [simplify]
  | op :: rest =>
    have hop : ∀ o ∈ op.walk, o.IsNormal := walkPlan_single op ▸ h.head
    rw [simplify, simplifyOp_of_normal op hop, simplify_of_normal rest h.tail]
    rfl

theorem mergeGuarded_of_normal (branches : List (Option Expr × List Op))
    (hjoined : ∀ b ∈ branches, Plan.Joined b.2) (h : ∀ o ∈ walkBranches branches, o.IsNormal) :
    mergeGuarded branches = branches := by
  match branches with
  | [] => rw [mergeGuarded]
  | (condition, body) :: rest =>
    obtain ⟨hbody, hrest⟩ := List.forall_mem_cons.mp hjoined
    rw [walkBranches, List.forall_mem_append] at h
    rw [mergeGuarded, simplify_of_normal body h.1, joinLiterals_of_joined hbody,
      mergeGuarded_of_normal rest hrest h.2]

end

end Merge

/-! ## The result -/

theorem Plan.isNormal_of_merge (plan : Plan) : plan.merge.IsNormal :=
  Merge.isNormal_joinLiterals (Merge.allNormal_simplify plan)

theorem Plan.merge_of_isNormal {plan : Plan} (h : plan.IsNormal) : plan.merge = plan := by
  rw [Plan.merge, Merge.simplify_of_normal plan h.ops, Merge.joinLiterals_of_joined h.joined]

/-- **Merging leads to the normal form and stops there**: a merged plan is normal, the plans that
merging leaves as they are are the normal ones, and merging twice is merging once. -/
theorem Plan.normalForm_merge (plan : Plan) :
    plan.merge.IsNormal ∧ (plan.IsNormal ↔ plan.merge = plan) ∧ plan.merge.merge = plan.merge := by
  have hmerged := Plan.isNormal_of_merge plan
  refine ⟨hmerged, ⟨Plan.merge_of_isNormal, ?_⟩, Plan.merge_of_isNormal hmerged⟩
  intro hfixed
  rw [← hfixed]
  exact hmerged

end Stencil
