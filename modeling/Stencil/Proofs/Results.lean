import Mathlib.Data.List.Forall2

/-!
# Steps that succeed

What is known when steps that may fail are made one after the other, and all of them succeed.
-/

namespace Stencil

variable {ε α β : Type}

theorem bind_eq_ok {x : Except ε α} {f : α → Except ε β} {b : β} :
    x >>= f = .ok b ↔ ∃ a, x = .ok a ∧ f a = .ok b := by
  cases x with
  | error e => exact ⟨nofun, nofun⟩
  | ok a =>
    constructor
    · exact fun h => ⟨a, rfl, h⟩
    · rintro ⟨_, ha, h⟩
      cases ha
      exact h

theorem pure_eq_ok {a b : α} : (pure a : Except ε α) = .ok b ↔ a = b :=
  ⟨Except.ok.inj, congrArg Except.ok⟩

theorem mapM_eq_ok {f : α → Except ε β} {items : List α} {results : List β}
    (h : items.mapM f = .ok results) : List.Forall₂ (fun a b => f a = .ok b) items results := by
  induction items generalizing results with
  | nil =>
    rw [List.mapM_nil, pure_eq_ok] at h
    exact h ▸ .nil
  | cons a rest ih =>
    rw [List.mapM_cons] at h
    obtain ⟨b, hb, h⟩ := bind_eq_ok.mp h
    obtain ⟨more, hmore, h⟩ := bind_eq_ok.mp h
    exact pure_eq_ok.mp h ▸ .cons hb (ih hmore)

/-- Every result of a step that is made for all items is the result for one of them. -/
theorem mem_mapM {f : α → Except ε β} {items : List α} {results : List β}
    (h : items.mapM f = .ok results) {b : β} (hb : b ∈ results) : ∃ a ∈ items, f a = .ok b := by
  have hall := mapM_eq_ok h
  clear h
  induction hall with
  | nil => cases hb
  | cons hone _ ih =>
    rcases List.mem_cons.mp hb with rfl | hb
    · exact ⟨_, List.mem_cons_self .., hone⟩
    · exact (ih hb).imp fun _ ha => ⟨List.mem_cons_of_mem _ ha.1, ha.2⟩

/-- What every single step of a fold keeps, the whole fold keeps. -/
theorem foldlM_keeps {f : β → α → Except ε β} {P : β → Prop} {items : List α}
    (step : ∀ a ∈ items, ∀ {acc acc'}, P acc → f acc a = .ok acc' → P acc') {start result : β}
    (hstart : P start) (h : items.foldlM f start = .ok result) : P result := by
  induction items generalizing start with
  | nil =>
    rw [List.foldlM_nil, pure_eq_ok] at h
    exact h ▸ hstart
  | cons a rest ih =>
    rw [List.foldlM_cons] at h
    obtain ⟨acc, hacc, h⟩ := bind_eq_ok.mp h
    exact ih (fun b hb => step b (List.mem_cons_of_mem _ hb))
      (step a (List.mem_cons_self ..) hstart hacc) h

end Stencil
