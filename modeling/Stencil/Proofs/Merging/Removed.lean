import Stencil.Plan.Walk
import Stencil.Proofs.Merging.Literals
import Stencil.Proofs.Reading.Constant

/-!
# What merging removes

Merging removes control blocks that have no plan to run. They are still run if a plan is not merged,
and then their conditions and sources are evaluated, so removing one is a change. It removes
conditions, too, that are constants. Deciding one is no change, unless it calls `set` where that
name is hidden. `Plan.dropped` lists the blocks, and the conditions that call `set`, at every depth,
with the names that the loops around them bind. Everything else that merging does is followed here:
plans that are put in place of a block are run in its place.

The result (`agree_merge`) is for any bond and for plans of which only such things are removed as
meet a condition. It leaves two things to the bond: what meets the condition does not count, and the
children of a component may be replaced by what they are merged to.
-/

namespace Stencil

namespace Merge

/-- What is removed, and the names that the loops around it bind. -/
inductive Dropped where
  /-- A block that has no plan to run. -/
  | block (names : List String) (op : Op)
  /-- A condition that is decided although it calls `set`. -/
  | condition (names : List String) (e : Expr)

/-- The block, if it has no plan to run. -/
def ifIdle (names : List String) (op : Op) : List Dropped :=
  if op.plans.all List.isEmpty then [.block names op] else []

/-- The conditions that are decided: constants, up to the first that is true. -/
def decided : List (Option Expr × Plan) → List Expr
  | (some e, _) :: rest =>
    match e.constant? with
    | none => decided rest
    | some c => if c.truth then [e] else e :: decided rest
  | _ => []

/-- The conditions that are decided, as far as they call `set`, and the branch that remains, if it is
in question and has no plan to run. -/
def droppedBranch (names : List String) (branches : List (Option Expr × Plan)) : List Dropped :=
  ((decided branches).filter (·.code.callsSet)).map (.condition names) ++
    match prune branches with
    | [] => []
    | (none, _) :: _ => []
    | remaining => ifIdle names (.branch remaining)

mutual

/-- What is removed when an operation is simplified, with all it holds. -/
def droppedOp (names : List String) : Op → List Dropped
  | .branch branches => droppedGuarded names branches ++ droppedBranch names (mergeGuarded branches)
  | .loop bound source body =>
    droppedPlan (bound ++ names) body ++
      ifIdle names (.loop bound source (joinLiterals (simplify body)))
  | .switch subject arms =>
    droppedGuarded names arms ++ ifIdle names (.switch subject (mergeGuarded arms))
  | .toggle expr body =>
    droppedPlan names body ++ ifIdle names (.toggle expr (joinLiterals (simplify body)))
  | .call _ _ (some body) => droppedPlan names body
  | _ => []

/-- What is removed when a plan is merged. -/
def droppedPlan (names : List String) : List Op → List Dropped
  | [] => []
  | op :: rest => droppedOp names op ++ droppedPlan names rest

/-- What is removed when guarded plans are merged. -/
def droppedGuarded (names : List String) : List (Option Expr × List Op) → List Dropped
  | [] => []
  | (_, body) :: rest => droppedPlan names body ++ droppedGuarded names rest

end

/-- A scope that only adds values for some names to another scope. -/
def Extends (names : List String) (context scope : Scope) : Prop :=
  ∃ bound : Scope, (∀ b ∈ bound, b.1 ∈ names) ∧ scope = bound ++ context

theorem Extends.refl (names : List String) (context : Scope) : Extends names context context :=
  ⟨[], nofun, rfl⟩

theorem Extends.bind {names bound : List String} {context scope : Scope}
    (h : Extends names context scope) (values : List Value) :
    Extends (bound ++ names) context ((bound.zip values).reverse ++ scope) := by
  obtain ⟨more, hmore, rfl⟩ := h
  refine ⟨(bound.zip values).reverse ++ more, fun b hb => ?_, by rw [List.append_assoc]⟩
  rcases List.mem_append.mp hb with hb | hb
  · exact List.mem_append_left _ (List.of_mem_zip (List.mem_reverse.mp hb)).1
  · exact List.mem_append_right _ (hmore b hb)

end Merge

/-- The condition is unhidden under loops that bind some names, whatever they bind them to. -/
def Merge.StaysUnhidden (names : List String) (context : Scope) (e : Expr) : Prop :=
  ∀ {scope : Scope}, Extends names context scope → e.Unhidden scope

/-- What merging a plan removes. -/
def Plan.dropped (plan : Plan) : List Merge.Dropped :=
  Merge.droppedPlan [] plan

/-! ## Branches that are decided -/

namespace Render

variable (run : Runner)

/-- **Deciding constant conditions makes no difference**: they are evaluated to what they are. -/
theorem execBranches_prune {branches : List (Option Expr × Plan)} {scope : Scope}
    (hset : ∀ e ∈ Merge.decided branches, e.Unhidden scope) :
    execBranches run (Merge.prune branches) scope = execBranches run branches scope := by
  fun_induction Merge.prune branches with
  | case1 | case2 body rest => rfl
  | case3 condition body rest hnone ih =>
    simp only [Merge.decided, hnone] at hset
    rw [execBranches, execBranches, ih hset]
  | case4 condition body rest value hvalue htruth =>
    simp only [Merge.decided, hvalue, if_pos htruth] at hset
    obtain ⟨v, hv, hsame⟩ := evaluate_constant run hvalue (hset condition List.mem_cons_self)
    rw [execBranches, execBranches.eq_3, hv, pure_bind, hsame, if_pos htruth]
  | case5 condition body rest value hvalue hfalse ih =>
    simp only [Merge.decided, hvalue, if_neg hfalse] at hset
    obtain ⟨hcondition, hrest⟩ := List.forall_mem_cons.mp hset
    obtain ⟨v, hv, hsame⟩ := evaluate_constant run hvalue hcondition
    rw [ih hrest, execBranches.eq_3, hv, pure_bind, hsame, if_neg hfalse]

end Render

namespace Bond

open Render Merge

variable {ι : Type} {B : Bond ι} {run run' : Runner} {context : Scope} {P : Dropped → Prop}

/-- Running a removed block does not count, and a condition that is decided is unhidden. -/
def Removable (B : Bond ι) (run : Runner) (context : Scope) : Dropped → Prop
  | .block names op => ∀ {scope}, Extends names context scope → ∀ {i} {m : Render Unit},
      B.Agree i m (execOp run op scope) → B.Agree i m (pure ())
  | .condition names e => StaysUnhidden names context e

/-- The children of components among some operations may be replaced by what they are merged to, if
only blocks that meet a condition are removed from them. -/
def Replaceable (B : Bond ι) (context : Scope) (P : Dropped → Prop) (ops : List Op) : Prop :=
  ∀ {reference arguments body}, Op.call reference arguments (some body) ∈ ops →
    ∀ {names scope}, Extends names context scope → (∀ d ∈ droppedPlan names body, P d) →
      B.bodies ⟨body, scope⟩ ⟨Plan.merge body, scope⟩

theorem Replaceable.subset {ops ops' : List Op} (h : B.Replaceable context P ops)
    (hsub : ops' ⊆ ops) : B.Replaceable context P ops' :=
  fun hmem => h (hsub hmem)

theorem agree_unlessIdle {names : List String} {op : Op} {scope : Scope} {i : ι} {m : Render Unit}
    (hd : ∀ d ∈ ifIdle names op, B.Removable run context d) (hs : Extends names context scope)
    (h : B.Agree i m (execOp run op scope)) :
    B.Agree i m (execPlan run (unlessIdle op) scope) := by
  unfold unlessIdle
  unfold ifIdle at hd
  split
  · next hidle =>
    rw [if_pos hidle] at hd
    rw [execPlan_nil]
    exact hd _ (List.mem_singleton_self _) hs h
  · rwa [execPlan_singleton]

theorem unhidden_decided {names : List String} {branches : List (Option Expr × Plan)} {scope : Scope}
    (hd : ∀ d ∈ droppedBranch names branches, B.Removable run context d)
    (hs : Extends names context scope) : ∀ e ∈ decided branches, e.Unhidden scope := by
  intro e he hcalls
  have hmem : .condition names e ∈ droppedBranch names branches :=
    List.mem_append_left _ (List.mem_map_of_mem (List.mem_filter.mpr ⟨he, hcalls⟩))
  exact hd _ hmem hs hcalls

theorem agree_resolve {names : List String} {branches : List (Option Expr × Plan)} {scope : Scope}
    {i : ι} {m : Render Unit} (hd : ∀ d ∈ droppedBranch names branches, B.Removable run context d)
    (hs : Extends names context scope) (h : B.Agree i m (execBranches run branches scope)) :
    B.Agree i m (execPlan run (resolve branches) scope) := by
  rw [← execBranches_prune run (unhidden_decided hd hs)] at h
  unfold resolve
  unfold droppedBranch at hd
  -- nothing remains, a plan that is certain to be taken, or branches in question
  rcases hp : prune branches with _ | ⟨⟨_ | condition, body⟩, rest⟩
  · rwa [hp, execBranches, ← execPlan_nil run scope] at h
  · rwa [hp, execBranches] at h
  · rw [hp] at hd h
    refine agree_unlessIdle (fun d hidle => hd d (List.mem_append_right _ hidle)) hs ?_
    rwa [execOp]

/-! ## The whole pass -/

/-- What merging needs of a bond: blocks that meet a condition do not count, nor does it if literals
are joined in the second plan. -/
structure Allows (B : Bond ι) (run run' : Runner) (context : Scope) (P : Dropped → Prop) : Prop where
  runners : B.Runners run run'
  removable : ∀ d, P d → B.Removable run' context d
  join : ∀ {i plan scope} {m : Render Unit}, B.Agree i m (execPlan run' plan scope) →
    B.Agree i m (execPlan run' (joinLiterals plan) scope)

mutual

theorem agree_simplifyOp (hm : B.Allows run run' context P) (names : List String) (op : Op)
    (hd : ∀ d ∈ droppedOp names op, P d)
    (hb : B.Replaceable context P op.walk) {scope : Scope} (hs : Extends names context scope)
    (i : ι) : B.Agree i (execOp run op scope) (execPlan run' (simplifyOp op) scope) :=
  match op with
  | .branch branches => by
    rw [simplifyOp, execOp]
    rw [droppedOp] at hd
    rw [Op.walk] at hb
    exact agree_resolve (fun d h => hm.removable d (hd d (List.mem_append_right _ h))) hs
      (agree_mergeBranches hm names branches (fun d h => hd d (List.mem_append_left _ h))
        (hb.subset (List.subset_cons_self _ _)) hs i)
  | .loop bound source body => by
    rw [simplifyOp]
    rw [droppedOp] at hd
    rw [Op.walk] at hb
    refine agree_unlessIdle (fun d h => hm.removable d (hd d (List.mem_append_right _ h))) hs ?_
    rw [execOp, execOp]
    refine (agree_evaluate hm.runners source scope).bind fun v =>
      agree_fold hm.runners (fun _ item => ?_) () v
    -- the body is run in a scope in which the names of the loop are bound
    simp only [bindNames, bind_assoc, pure_bind]
    refine (agree_boundValues hm.runners bound item).bind fun values => hm.join ?_
    exact agree_simplify hm (bound ++ names) body (fun d h => hd d (List.mem_append_left _ h))
      (hb.subset (List.subset_cons_self _ _)) (hs.bind values) i
  | .switch subject arms => by
    rw [simplifyOp]
    rw [droppedOp] at hd
    rw [Op.walk] at hb
    refine agree_unlessIdle (fun d h => hm.removable d (hd d (List.mem_append_right _ h))) hs ?_
    rw [execOp, execOp]
    exact (agree_evaluate hm.runners subject scope).bind fun v =>
      agree_mergeArms hm names arms (fun d h => hd d (List.mem_append_left _ h))
        (hb.subset (List.subset_cons_self _ _)) hs v i
  | .toggle e body => by
    rw [simplifyOp]
    rw [droppedOp] at hd
    rw [Op.walk] at hb
    refine agree_unlessIdle (fun d h => hm.removable d (hd d (List.mem_append_right _ h))) hs ?_
    rw [execOp, execOp]
    refine (agree_evaluate hm.runners e scope).bind fun v => Agree.ite _ (hm.join ?_) (Agree.pure ())
    exact agree_simplify hm names body (fun d h => hd d (List.mem_append_left _ h))
      (hb.subset (List.subset_cons_self _ _)) hs i
  | .call reference arguments (some body) => by
    rw [simplifyOp, execPlan_singleton, execOp, execOp]
    rw [droppedOp] at hd
    rw [Op.walk] at hb
    exact agree_callComponent hm.runners reference arguments (hb (List.mem_cons_self ..) hs hd)
  | .call _ _ none | .literal _ | .escaped .. | .joined _ | .raw _ => by
    rw [simplifyOp, execPlan_singleton]
    · exact agree_execOp hm.runners i _ scope
    all_goals nofun

theorem agree_simplify (hm : B.Allows run run' context P) (names : List String) (plan : List Op)
    (hd : ∀ d ∈ droppedPlan names plan, P d)
    (hb : B.Replaceable context P (walkPlan plan)) {scope : Scope}
    (hs : Extends names context scope) (i : ι) :
    B.Agree i (execPlan run plan scope) (execPlan run' (simplify plan) scope) :=
  match plan with
  | [] => by
    rw [simplify]
    exact agree_execPlan hm.runners i [] scope
  | op :: rest => by
    rw [simplify, execPlan_cons, execPlan_append]
    rw [droppedPlan] at hd
    rw [walkPlan] at hb
    exact (agree_simplifyOp hm names op (fun d h => hd d (List.mem_append_left _ h))
      (hb.subset (List.subset_append_left _ _)) hs i).bind fun _ =>
        agree_simplify hm names rest (fun d h => hd d (List.mem_append_right _ h))
          (hb.subset (List.subset_append_right _ _)) hs i

theorem agree_mergeBranches (hm : B.Allows run run' context P) (names : List String)
    (branches : List (Option Expr × List Op))
    (hd : ∀ d ∈ droppedGuarded names branches, P d)
    (hb : B.Replaceable context P (walkBranches branches)) {scope : Scope}
    (hs : Extends names context scope) (i : ι) :
    B.Agree i (execBranches run branches scope) (execBranches run' (mergeGuarded branches) scope) :=
  match branches with
  | [] => by
    rw [mergeGuarded, execBranches, execBranches]
    exact Agree.pure ()
  | (condition, body) :: rest => by
    rw [droppedGuarded] at hd
    rw [walkBranches] at hb
    have hbody := hm.join (agree_simplify hm names body (fun d h => hd d (List.mem_append_left _ h))
      (hb.subset (List.subset_append_left _ _)) hs i)
    rw [mergeGuarded]
    cases condition with
    | none => rwa [execBranches, execBranches]
    | some condition =>
      rw [execBranches, execBranches]
      exact (agree_evaluate hm.runners condition scope).bind fun _ => Agree.ite _ hbody
        (agree_mergeBranches hm names rest (fun d h => hd d (List.mem_append_right _ h))
          (hb.subset (List.subset_append_right _ _)) hs i)

theorem agree_mergeArms (hm : B.Allows run run' context P) (names : List String)
    (arms : List (Option Expr × List Op))
    (hd : ∀ d ∈ droppedGuarded names arms, P d)
    (hb : B.Replaceable context P (walkBranches arms)) {scope : Scope}
    (hs : Extends names context scope) (v : Value) (i : ι) :
    B.Agree i (execArms run arms v scope) (execArms run' (mergeGuarded arms) v scope) :=
  match arms with
  | [] => by
    rw [mergeGuarded, execArms, execArms]
    exact Agree.pure ()
  | (pattern, body) :: rest => by
    rw [droppedGuarded] at hd
    rw [walkBranches] at hb
    have hbody := hm.join (agree_simplify hm names body (fun d h => hd d (List.mem_append_left _ h))
      (hb.subset (List.subset_append_left _ _)) hs i)
    rw [mergeGuarded]
    cases pattern with
    | none => rwa [execArms, execArms]
    | some pattern =>
      rw [execArms, execArms]
      exact (agree_evaluate hm.runners pattern scope).bind fun _ => (Agree.result _).bind fun c =>
        Agree.ite c hbody
          (agree_mergeArms hm names rest (fun d h => hd d (List.mem_append_right _ h))
            (hb.subset (List.subset_append_right _ _)) hs v i)

end

/-- **A plan and what it is merged to agree**, if only blocks that do not count are removed. -/
theorem agree_merge (hm : B.Allows run run' context P) (names : List String) (plan : Plan)
    (hd : ∀ d ∈ droppedPlan names plan, P d)
    (hb : B.Replaceable context P (walkPlan plan)) {scope : Scope}
    (hs : Extends names context scope) (i : ι) :
    B.Agree i (execPlan run plan scope) (execPlan run' plan.merge scope) :=
  hm.join (agree_simplify hm names plan hd hb hs i)

end Bond

end Stencil
