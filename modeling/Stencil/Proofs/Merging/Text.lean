import Stencil.Proofs.Merging.Removed

/-!
# The text of merged plans

A control block with no plan to run is removed when a plan is merged, but to run it may take values
from an iterator that is read later on. So a merged plan does not always write the text of the plan
(`planText_ofTree_consumed`).

It does if all that is removed is idle: wherever a block completes, it leaves the world as it was,
and a condition that is decided although it calls `set` stands where that name is not hidden.
Nothing else is asked for. Components may have children, which are merged, too, and may run them as
often as they like; and a block that fails may well be removed, as then there is no text.
-/

namespace Stencil

/-- A removed block that leaves the world as it was, wherever it completes, or a decided condition
that is unhidden wherever it stands. -/
def Merge.Dropped.Idle (context : Scope) : Merge.Dropped → Prop
  | .block names op => ∀ (n : Nat) {scope : Scope}, Extends names context scope → ∀ {w v : World},
      Render.execOp (Render.performWithin n) op scope w = (.ok (), v) → v = w
  | .condition names e => StaysUnhidden names context e

namespace Bond

open Render Merge

/-- The worlds are one and the same, and the buffer can grow; but children may be replaced by what
they are merged to, if all that is removed from them is idle. -/
def merging (context : Scope) : Bond Unit where
  __ := growing
  bodies b b' := b = b' ∨ ∃ names, Extends names context b.scope ∧
    (∀ d ∈ droppedPlan names b.plan, d.Idle context) ∧ b' = ⟨b.plan.merge, b.scope⟩
  strict _ := False
  bodies_refl _ := .inl rfl

variable {context : Scope} {i : Unit} {n : Nat}

theorem merging_removable {d : Dropped} (hd : d.Idle context) :
    (merging context).Removable (performWithin n) context d := by
  cases d with
  | condition names e => exact hd
  | block names op =>
    intro scope hs i m h w w' hw
    have hm := h hw
    rcases hr : m w with ⟨e | a, v⟩
    · exact fun hstrict => hstrict.elim
    · rw [hr] at hm
      obtain ⟨h₁, h₂⟩ := hm
      have hidle : (execOp (performWithin n) op scope w').2 = w' := hd n hs (Prod.ext h₁ rfl)
      exact ⟨rfl, hidle ▸ h₂⟩

theorem merging_join {plan : Plan} {scope : Scope} {m : Render Unit}
    (h : (merging context).Agree i m (execPlan (performWithin n) plan scope)) :
    (merging context).Agree i m (execPlan (performWithin n) (joinLiterals plan) scope) := by
  intro w w' hw
  have hroom : w'.buffer.room = none := hw.buffer.1 ▸ hw.buffer.2
  have hjoin := agree_growing.mp (agree_joinLiterals (growing_runners n) plan scope) w' hroom
  rw [← hjoin.1]
  exact h hw

theorem merging_allows (hr : (merging context).Runners (performWithin n) (performWithin n)) :
    (merging context).Allows (performWithin n) (performWithin n) context (·.Idle context) where
  runners := hr
  removable _ hd := merging_removable hd
  join h := merging_join h

theorem merging_replaceable (ops : List Op) :
    (merging context).Replaceable context (·.Idle context) ops :=
  fun _ names _ hs hd => .inr ⟨names, hs, hd, rfl⟩

theorem agree_merge_merging (hr : (merging context).Runners (performWithin n) (performWithin n))
    {names : List String} {plan : Plan} (hd : ∀ d ∈ droppedPlan names plan, d.Idle context)
    {scope : Scope} (hs : Extends names context scope) (i : Unit) :
    (merging context).Agree i (execPlan (performWithin n) plan scope)
      (execPlan (performWithin n) plan.merge scope) :=
  agree_merge (merging_allows hr) names plan hd (merging_replaceable _) hs i

theorem merging_runners (n : Nat) :
    (merging context).Runners (performWithin n) (performWithin n) := by
  refine performWithin_agree (merging context) (fun n hr b b' h i => ?_) n
  rcases h with rfl | ⟨names, hs, hd, rfl⟩
  · exact agree_execPlan hr i b.plan b.scope
  · exact agree_merge_merging hr hd hs i

theorem tied_merging {w : World} (hw : w.buffer.room = none) : w.Tied (merging context) () w :=
  ⟨⟨rfl, hw⟩, List.forall₂_same.mpr fun _ _ => .inl rfl, List.nil_prefix, rfl, rfl, rfl, rfl⟩

end Bond

namespace Render

open Merge

/-! ## Idle blocks -/

theorem evaluate_name (run : Runner) {e : Expr} {id : String} (h : e.code = .name id)
    (scope : Scope) : ∃ r, evaluate run e scope = result r := by
  unfold evaluate
  rw [h, eval]
  unfold lookup
  rw [lookupFrames, pure_bind]
  dsimp only
  cases Value.named? id scope with
  | some v => exact ⟨.ok v, rfl⟩
  | none =>
    cases Builtin.ofName? id with
    | some f => exact ⟨.ok (.builtin f), rfl⟩
    | none => exact ⟨.error .unknownName, rfl⟩

theorem execBranches_names (run : Runner) (scope : Scope) (w : World) :
    ∀ branches : List (Option Expr × Plan),
      (∀ b ∈ branches, b.2 = [] ∧ ∀ e, b.1 = some e → ∃ id, e.code = .name id) →
      (execBranches run branches scope w).2 = w
  | [], _ => by rw [execBranches]; rfl
  | (none, body) :: _, h => by
    obtain ⟨rfl, -⟩ := h _ (List.mem_cons_self ..)
    rw [execBranches, execPlan_nil]
    rfl
  | (some e, body) :: rest, h => by
    obtain ⟨rfl, he⟩ := h _ (List.mem_cons_self ..)
    obtain ⟨id, hid⟩ := he e rfl
    obtain ⟨r, hr⟩ := evaluate_name run hid scope
    have ih := execBranches_names run scope w rest fun b hb => h b (List.mem_cons_of_mem _ hb)
    rw [execBranches, hr, execPlan_nil]
    cases r with
    | error e => rfl
    | ok v =>
      -- whatever is chosen, there is nothing to run
      show ((if v.truth then pure () else execBranches run rest scope : Render Unit) w).2 = w
      split
      · rfl
      · exact ih

/-- Looking up names changes nothing. -/
theorem idle_branch {names : List String} {branches : List (Option Expr × Plan)} (context : Scope)
    (h : ∀ b ∈ branches, b.2 = [] ∧ ∀ e, b.1 = some e → ∃ id, e.code = .name id) :
    Dropped.Idle context (.block names (.branch branches)) := by
  intro n scope _ w v hv
  rw [execOp] at hv
  have hw := execBranches_names (performWithin n) scope w branches h
  rwa [hv] at hw

/-! ## Texts -/

/-- What the buffer of the world is makes no difference to what is written to a new one. -/
theorem onFreshBuffer_renew (m : Render Unit) (w : World) :
    onFreshBuffer m { w with buffer := {} } =
      ((onFreshBuffer m w).1, { (onFreshBuffer m w).2 with buffer := {} }) :=
  rfl

set_option maxRecDepth 20000 in
/-- The expression `it`. -/
def itExpr : Expr := ⟨"it", .name "it", none, rfl⟩

set_option maxRecDepth 20000 in
theorem reads_x : Term.read? (Expr.codeText "x") = some (.name "x") := rfl

/-- The expression `x`. -/
def xExpr : Expr := ⟨"x", .name "x", none, reads_x⟩

/-- An empty block, and then a loop over `it`. -/
def withBlock (block : Node) : List Node :=
  [block, .each ["x"] itExpr [.text (.dynamic xExpr false) none] none]

/-- A world with an iterator that has two strings left. -/
def pairWorld : World where
  cursors := #[.plain (.items [.ofString "a", .ofString "b"])]

end Render

end Stencil
