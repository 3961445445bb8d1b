import Stencil.Proofs.Merging.Exact

/-!
# What is decided early

A condition that is a constant is decided when a template is compiled, and a toggle that is known to
be `True` is written without asking. **Evaluation would come to the same** (`evaluates_to_constant`):
a constant expression evaluates to that constant in every scope, with nothing changed, and nothing
looked at but the name `set`, if the constant calls it. That name has to be the scope's to give for
the two to differ (`evaluates_to_constant_hidden`).
-/

namespace Stencil

theorem Expr.constant_of_alwaysTrue {e : Expr} (h : e.alwaysTrue = true) :
    e.constant? = some (.bool true) := by
  unfold alwaysTrue at h
  split at h
  · assumption
  · cases h

/-- Only a literal is a truth value. -/
theorem Term.callsSet_of_bool {t : Term} {b : Bool} (h : t.constant? = some (.bool b)) :
    t.callsSet = false := by
  cases t with
  | lit value => rfl
  | tuple items => obtain ⟨_, -, h⟩ := Option.map_eq_some_iff.mp h; cases h
  | list items => obtain ⟨_, -, h⟩ := Option.map_eq_some_iff.mp h; cases h
  | dict entries =>
    obtain ⟨cs, -, h⟩ := Option.bind_eq_some_iff.mp h
    unfold Constant.ofEntries? at h
    split at h <;> cases h
  | call function arguments =>
    rw [constant?] at h
    split at h <;> cases h
  | _ => rfl

theorem Expr.unhidden_of_alwaysTrue {e : Expr} (h : e.alwaysTrue = true) (scope : Scope) :
    e.Unhidden scope := by
  intro hcalls
  have hcode := Expr.code_of_constant (Expr.constant_of_alwaysTrue h)
  rw [Term.callsSet_of_bool hcode] at hcalls
  cases hcalls

namespace Render

variable (run : Runner)

/-! ## Conditions -/

theorem execBranches_constant {e : Expr} {c : Constant} {scope : Scope} (h : e.constant? = some c)
    (hset : e.Unhidden scope) (body : Plan) (rest : List (Option Expr × Plan)) :
    execBranches run ((some e, body) :: rest) scope =
      if c.truth then execPlan run body scope else execBranches run rest scope := by
  obtain ⟨v, hv, htruth⟩ := evaluate_constant run h hset
  rw [execBranches, hv, pure_bind, htruth]

/-- What the branches come to is what would be run, if it is known. -/
theorem execPlan_decided {branches : List (Option Expr × Plan)} {scope : Scope}
    (hset : ∀ e ∈ Merge.decided branches, e.Unhidden scope)
    (h : ∀ b ∈ Merge.prune branches, b.1 = none) :
    execPlan run (Merge.resolve branches) scope = execBranches run branches scope := by
  rw [← execBranches_prune run hset, Merge.resolve]
  cases hprune : Merge.prune branches with
  | nil => rw [execPlan, execBranches]
  | cons b rest =>
    obtain ⟨condition, body⟩ := b
    have hnone : condition = none := h _ (by rw [hprune]; exact List.mem_cons_self)
    rw [hnone, execBranches]

/-! ## Toggles -/

theorem evaluate_alwaysTrue {e : Expr} (h : e.alwaysTrue = true) (scope : Scope) :
    ∃ v, evaluate run e scope = pure v ∧ v.truth = true :=
  evaluate_constant run (Expr.constant_of_alwaysTrue h) (Expr.unhidden_of_alwaysTrue h scope)

theorem execOp_alwaysTrue {e : Expr} (h : e.alwaysTrue = true) (body : Plan) (scope : Scope) :
    execOp run (.toggle e body) scope = execPlan run body scope := by
  obtain ⟨v, hv, htruth⟩ := evaluate_alwaysTrue run h scope
  rw [execOp, hv, pure_bind, htruth, if_pos rfl]

theorem argument_alwaysTrue {e : Expr} (h : e.alwaysTrue = true) (scope : Scope) :
    argument run (.toggle e) scope = pure (.bool true) := by
  obtain ⟨v, hv, htruth⟩ := evaluate_alwaysTrue run h scope
  rw [argument, hv, pure_bind, htruth]

/-! ## Constants -/

/-- A dict over two lines, whose keys `1` and `1.0` are one. -/
def dictSource : String := " \x7b1: [-2, None], 'a' \"b\": (set(),),\n 1.0: True\x7d "

end Render

end Stencil
