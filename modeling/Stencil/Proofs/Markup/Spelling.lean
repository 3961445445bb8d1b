import Stencil.Proofs.Joining
import Stencil.Proofs.Markup.Scan

/-!
# The texts that a plan may write

A plan spells a text if it may write it, whatever the values of its expressions are: any branch may
be taken or none, a loop may go round any number of times, and for a value any inert text may be
written. Trusted markup and components may write anything.

This takes no account of what conditions and sources do when they are evaluated, so merging only
ever takes texts away (`Plan.spells_merge`).
-/

namespace Stencil

open Markup

/-- Texts of a language, one after the other. -/
inductive Repeated (L : String → Prop) : String → Prop
  | done : Repeated L ""
  | more {first rest : String} (hfirst : L first) (hrest : Repeated L rest) :
      Repeated L (first ++ rest)

theorem Repeated.mono {L M : String → Prop} (h : ∀ text, L text → M text) {text : String}
    (ht : Repeated L text) : Repeated M text := by
  induction ht with
  | done => exact .done
  | more hfirst _ ih => exact .more (h _ hfirst) ih

mutual

/-- Whether an operation may write a text. -/
def Op.Spells : Op → String → Prop
  | .literal known, text => text = known
  | .escaped .., text => Inert text.toList
  | .joined _, text => Inert text.toList
  | .raw _, _ => True
  | .branch branches, text => text = "" ∨ spellsGuarded branches text
  | .loop _ _ body, text => Repeated (spellsPlan body) text
  | .switch _ arms, text => text = "" ∨ spellsGuarded arms text
  | .toggle _ body, text => text = "" ∨ spellsPlan body text
  | .call .., _ => True

/-- Whether a plan may write a text. -/
def spellsPlan : List Op → String → Prop
  | [], text => text = ""
  | op :: rest, text => ∃ first more, op.Spells first ∧ spellsPlan rest more ∧ text = first ++ more

/-- Whether one of the guarded plans may write a text. -/
def spellsGuarded : List (Option Expr × List Op) → String → Prop
  | [], _ => False
  | (_, body) :: rest, text => spellsPlan body text ∨ spellsGuarded rest text

end

/-- Whether a plan may write a text. -/
def Plan.Spells (plan : Plan) (text : String) : Prop :=
  spellsPlan plan text

theorem spells_nil {text : String} : spellsPlan [] text ↔ text = "" := by
  rw [spellsPlan]

theorem spells_cons {op : Op} {rest : Plan} {text : String} :
    spellsPlan (op :: rest) text ↔
      ∃ first more, op.Spells first ∧ spellsPlan rest more ∧ text = first ++ more := by
  rw [spellsPlan]

theorem spells_singleton {op : Op} {text : String} : spellsPlan [op] text ↔ op.Spells text := by
  simp [spells_cons, spells_nil]

theorem spells_append {p q : Plan} {text : String} :
    spellsPlan (p ++ q) text ↔
      ∃ first more, spellsPlan p first ∧ spellsPlan q more ∧ text = first ++ more := by
  induction p generalizing text with
  | nil => simp [spells_nil]
  | cons op p ih =>
    simp only [List.cons_append, spells_cons, ih]
    constructor
    · rintro ⟨a, _, ha, ⟨b, c, hb, hc, rfl⟩, rfl⟩
      exact ⟨a ++ b, c, ⟨a, b, ha, hb, rfl⟩, hc, String.append_assoc.symm⟩
    · rintro ⟨_, c, ⟨a, b, ha, hb, rfl⟩, hc, rfl⟩
      exact ⟨a, b ++ c, ha, ⟨b, c, hb, hc, rfl⟩, String.append_assoc⟩

theorem spells_literal_cons {known : String} {rest : Plan} {text : String} :
    spellsPlan (.literal known :: rest) text ↔ ∃ more, spellsPlan rest more ∧ text = known ++ more := by
  simp [spells_cons, Op.Spells]

theorem spells_here {condition : Option Expr} {body : Plan} {rest : List (Option Expr × Plan)}
    {text : String} (h : spellsPlan body text) :
    text = "" ∨ spellsGuarded ((condition, body) :: rest) text := by
  rw [spellsGuarded]
  exact .inr (.inl h)

theorem spells_later {condition : Option Expr} {body : Plan} {rest : List (Option Expr × Plan)}
    {text : String} (h : text = "" ∨ spellsGuarded rest text) :
    text = "" ∨ spellsGuarded ((condition, body) :: rest) text := by
  rw [spellsGuarded]
  exact h.imp_right .inr

/-! ## Merging -/

namespace Merge

theorem spells_joinLiterals {plan : Plan} {text : String}
    (h : spellsPlan (joinLiterals plan) text) : spellsPlan plan text := by
  have hjoins := joins_joinLiterals plan
  generalize joinLiterals plan = joined at hjoins h
  induction hjoins generalizing text with
  | nil => exact h
  | keep _ _ _ ih =>
    obtain ⟨a, b, ha, hb, rfl⟩ := spells_cons.mp h
    exact spells_cons.mpr ⟨a, b, ha, ih hb, rfl⟩
  | drop hop _ ih =>
    rw [Op.eq_literal hop]
    exact spells_literal_cons.mpr ⟨text, ih h, String.empty_append.symm⟩
  | @join _ _ _ _ first second hop _ hnext _ ih =>
    obtain rfl := Op.eq_literal hop
    obtain rfl := Op.eq_literal hnext
    obtain ⟨b, hb, rfl⟩ := spells_literal_cons.mp h
    have hrest := ih (spells_literal_cons.mpr ⟨b, hb, rfl⟩)
    exact spells_literal_cons.mpr ⟨second ++ b, hrest, String.append_assoc⟩

theorem spells_unlessIdle {op : Op} {text : String} (h : spellsPlan (unlessIdle op) text) :
    text = "" ∨ op.Spells text := by
  unfold unlessIdle at h
  split at h
  · exact .inl (spells_nil.mp h)
  · exact .inr (spells_singleton.mp h)

theorem spells_prune {branches : List (Option Expr × Plan)} {text : String}
    (h : spellsGuarded (prune branches) text) : spellsGuarded branches text := by
  fun_induction prune branches with
  | case1 => exact h
  | case2 body rest =>
    simp only [spellsGuarded, or_false] at h ⊢
    exact .inl h
  | case3 condition body rest hnone ih =>
    rw [spellsGuarded] at h ⊢
    exact h.imp_right ih
  | case4 condition body rest value hvalue htruth =>
    simp only [spellsGuarded, or_false] at h ⊢
    exact .inl h
  | case5 condition body rest value hvalue hfalse ih =>
    rw [spellsGuarded]
    exact .inr (ih h)

theorem spells_resolve {branches : List (Option Expr × Plan)} {text : String}
    (h : spellsPlan (resolve branches) text) : text = "" ∨ spellsGuarded branches text := by
  unfold resolve at h
  split at h
  · exact .inl (spells_nil.mp h)
  · next hp =>
    refine .inr (spells_prune ?_)
    rw [hp, spellsGuarded]
    exact .inl h
  · rcases spells_unlessIdle h with h | h
    · exact .inl h
    · rw [Op.Spells] at h
      exact h.imp_right spells_prune

mutual

theorem spells_simplifyOp (op : Op) {text : String} (h : spellsPlan (simplifyOp op) text) :
    op.Spells text :=
  match op with
  | .branch branches => by
    rw [simplifyOp] at h
    rw [Op.Spells]
    exact (spells_resolve h).imp_right (spells_mergeGuarded branches)
  | .loop names source body => by
    rw [simplifyOp] at h
    rw [Op.Spells]
    rcases spells_unlessIdle h with rfl | h
    · exact .done
    · rw [Op.Spells] at h
      exact h.mono fun _ ht => spells_simplify body (spells_joinLiterals ht)
  | .switch subject arms => by
    rw [simplifyOp] at h
    rw [Op.Spells]
    rcases spells_unlessIdle h with h | h
    · exact .inl h
    · rw [Op.Spells] at h
      exact h.imp_right (spells_mergeGuarded arms)
  | .toggle expr body => by
    rw [simplifyOp] at h
    rw [Op.Spells]
    rcases spells_unlessIdle h with h | h
    · exact .inl h
    · rw [Op.Spells] at h
      exact h.imp_right fun ht => spells_simplify body (spells_joinLiterals ht)
  | .call .. => by
    rw [Op.Spells]
    trivial
  | .literal _ | .escaped .. | .joined _ | .raw _ => by
    rw [simplifyOp] at h
    · exact spells_singleton.mp h
    all_goals nofun

theorem spells_simplify (plan : List Op) {text : String} (h : spellsPlan (simplify plan) text) :
    spellsPlan plan text :=
  match plan with
  | [] => by rwa [simplify] at h
  | op :: rest => by
    rw [simplify] at h
    obtain ⟨a, b, ha, hb, rfl⟩ := spells_append.mp h
    exact spells_cons.mpr ⟨a, b, spells_simplifyOp op ha, spells_simplify rest hb, rfl⟩

theorem spells_mergeGuarded (branches : List (Option Expr × List Op)) {text : String}
    (h : spellsGuarded (mergeGuarded branches) text) : spellsGuarded branches text :=
  match branches with
  | [] => by rwa [mergeGuarded] at h
  | (condition, body) :: rest => by
    rw [mergeGuarded, spellsGuarded] at h
    rw [spellsGuarded]
    exact h.imp (fun h => spells_simplify body (spells_joinLiterals h)) (spells_mergeGuarded rest)

end

end Merge

/-- **Merging only takes texts away**: what a merged plan may write the plan may write, too. -/
theorem Plan.spells_merge {plan : Plan} {text : String} (h : plan.merge.Spells text) :
    plan.Spells text :=
  Merge.spells_simplify plan (Merge.spells_joinLiterals h)

end Stencil
