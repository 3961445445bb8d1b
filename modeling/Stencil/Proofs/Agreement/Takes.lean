import Mathlib.Data.List.Basic
import Mathlib.Data.List.Forall2
import Stencil.Source.Match

/-!
# What a matcher takes

A matcher takes a text, given what follows it, if it reads exactly this text, wherever in the source
it stands. What matters of its value is said by a property. A matcher refuses a text if it fails on
it. There are rules for every way that matchers are built.
-/

namespace Stencil.Source.Matcher

variable {α β : Type}

/-- Where `s` and then `t` follow, the matcher takes `s`, and its value is as described. -/
def Takes (p : Matcher α) (s t : List Char) (P : α → Prop) : Prop :=
  ∀ o, ∃ a, P a ∧ (p ⟨o, s ++ t⟩).result = some (a, ⟨o + s.length, t⟩)

/-- The matcher fails on the text. -/
def Refuses (p : Matcher α) (t : List Char) : Prop :=
  ∀ o, (p ⟨o, t⟩).result = none

variable {p q : Matcher α} {f : α → Matcher β} {s s' t : List Char} {P P' : α → Prop} {Q : β → Prop}

/-! ## Results -/

theorem result_bind (p : Matcher α) (f : α → Matcher β) (c : Cursor) :
    ((p >>= f) c).result = (p c).result.bind fun r => (f r.1 r.2).result := by
  show (Matcher.bind p f c).result = _
  unfold Matcher.bind
  rcases p c with ⟨_ | ⟨_, _⟩, _⟩ <;> rfl

theorem result_orElse (p q : Matcher α) (c : Cursor) :
    (orElse p q c).result = (p c).result.or (q c).result := by
  unfold orElse
  rcases p c with ⟨_ | ⟨_, _⟩, _⟩ <;> rfl

theorem result_named (rule : Rule) (p : Matcher α) (c : Cursor) :
    (named rule p c).result = (p c).result := by
  unfold named
  rcases p c with ⟨_ | ⟨_, _⟩, _⟩ <;> rfl

theorem result_scan (scanner : List Char → Option Nat) (c : Cursor) :
    (scan scanner c).result = (scanner c.rest).map fun n =>
      (⟨c.offset, c.rest.take n⟩, ⟨c.offset + n, c.rest.drop n⟩) := by
  unfold scan
  cases scanner c.rest <;> rfl

theorem result_optional (p : Matcher α) (c : Cursor) :
    (optional p c).result = if c.rest.isEmpty then some (none, c) else
      some (((p c).result.map fun r => (some r.1, r.2)).getD (none, c)) := by
  unfold optional
  split
  · rfl
  · rcases p c with ⟨_ | ⟨_, _⟩, _⟩ <;> rfl

/-! ## Rules for taking -/

theorem Takes.mono (h : p.Takes s t P) (hP : ∀ a, P a → P' a) : p.Takes s t P' := by
  intro o
  obtain ⟨a, ha, hr⟩ := h o
  exact ⟨a, hP a ha, hr⟩

protected theorem Takes.pure {a : α} (h : P a) : Takes (Pure.pure a) [] t P :=
  fun _ => ⟨a, h, rfl⟩

protected theorem Takes.bind (hp : p.Takes s (s' ++ t) P) (hf : ∀ a, P a → (f a).Takes s' t Q) :
    (p >>= f).Takes (s ++ s') t Q := by
  intro o
  obtain ⟨a, ha, hr⟩ := hp o
  obtain ⟨b, hb, hr'⟩ := hf a ha (o + s.length)
  refine ⟨b, hb, ?_⟩
  rw [result_bind, List.append_assoc, hr, List.length_append, ← Nat.add_assoc]
  exact hr'

/-- The last step takes the whole text that is left. -/
protected theorem Takes.map {g : α → β} (hp : p.Takes s t P) (h : ∀ a, P a → Q (g a)) :
    Takes (do return g (← p)) s t Q := by
  have hp : p.Takes s ([] ++ t) P := hp
  simpa using hp.bind fun a ha => Takes.pure (h a ha)

/-- A step that takes nothing. -/
protected theorem Takes.skip (hp : p.Takes [] (s ++ t) P) (hf : ∀ a, P a → (f a).Takes s t Q) :
    (p >>= f).Takes s t Q :=
  hp.bind hf

protected theorem Takes.offset : Takes Matcher.offset [] t fun _ => True :=
  fun o => ⟨o, trivial, rfl⟩

protected theorem Takes.named (rule : Rule) (h : p.Takes s t P) : (named rule p).Takes s t P := by
  intro o
  obtain ⟨a, ha, hr⟩ := h o
  exact ⟨a, ha, by rw [result_named, hr]⟩

protected theorem Takes.orElse (h : p.Takes s t P) : (orElse p q).Takes s t P := by
  intro o
  obtain ⟨a, ha, hr⟩ := h o
  exact ⟨a, ha, by rw [result_orElse, hr]; rfl⟩

protected theorem Refuses.orElse (hp : p.Refuses (s ++ t)) (hq : q.Takes s t P) :
    (orElse p q).Takes s t P := by
  intro o
  obtain ⟨a, ha, hr⟩ := hq o
  exact ⟨a, ha, by rw [result_orElse, hp o, hr]; rfl⟩

protected theorem Takes.firstOf {rest : List (Matcher α)} (h : p.Takes s t P) :
    (firstOf (p :: rest)).Takes s t P :=
  h.orElse

protected theorem Refuses.firstOf {rest : List (Matcher α)} (hp : p.Refuses (s ++ t))
    (h : (firstOf rest).Takes s t P) : (firstOf (p :: rest)).Takes s t P :=
  hp.orElse h

/-- The first choices are not the one. -/
protected theorem Refuses.firstOf_append {before rest : List (Matcher α)}
    (hbefore : ∀ p ∈ before, p.Refuses (s ++ t)) (h : (firstOf rest).Takes s t P) :
    (firstOf (before ++ rest)).Takes s t P := by
  induction before with
  | nil => exact h
  | cons p before ih =>
    obtain ⟨hp, hbefore⟩ := List.forall_mem_cons.mp hbefore
    exact hp.orElse (ih hbefore)

protected theorem Takes.scan {scanner : List Char → Option Nat}
    (h : scanner (s ++ t) = some s.length) : (scan scanner).Takes s t fun l => l.chars = s := by
  intro o
  refine ⟨⟨o, s⟩, rfl, ?_⟩
  rw [result_scan]
  simp [h]

protected theorem Takes.token {rule : Rule} {scanner : List Char → Option Nat}
    (h : scanner (s ++ t) = some s.length) : (token rule scanner).Takes s t fun l => l.chars = s :=
  (Takes.scan h).named rule

protected theorem Takes.lexeme (h : p.Takes s t P) : (lexeme p).Takes s t fun l => l.chars = s := by
  intro o
  obtain ⟨a, -, hr⟩ := h o
  refine ⟨⟨o, s⟩, rfl, ?_⟩
  unfold lexeme
  rcases hp : p ⟨o, s ++ t⟩ with ⟨_ | ⟨b, c⟩, furthest⟩
  · rw [hp] at hr
    cases hr
  · rw [hp] at hr
    cases hr
    simp

/-- What is optional is there. -/
protected theorem Takes.optional (hs : s ≠ []) (h : p.Takes s t P) :
    (optional p).Takes s t fun found => ∃ a, found = some a ∧ P a := by
  intro o
  obtain ⟨a, ha, hr⟩ := h o
  refine ⟨some a, ⟨a, rfl, ha⟩, ?_⟩
  rw [result_optional, hr]
  simp [hs]

/-- What is optional is not there. -/
protected theorem Refuses.optional (h : t = [] ∨ p.Refuses t) :
    (optional p).Takes [] t fun found => found = none := by
  intro o
  refine ⟨none, rfl, ?_⟩
  rw [result_optional]
  rcases h with rfl | h
  · rfl
  · simp [h o]

/-! ## Rules for refusing -/

protected theorem Refuses.bind (h : p.Refuses t) : (p >>= f).Refuses t := by
  intro o
  rw [result_bind, h o]
  rfl

protected theorem Takes.refuses (hp : p.Takes s t P) (hf : ∀ a, P a → (f a).Refuses t) :
    (p >>= f).Refuses (s ++ t) := by
  intro o
  obtain ⟨a, ha, hr⟩ := hp o
  rw [result_bind, hr]
  exact hf a ha _

protected theorem Refuses.offset {f : Nat → Matcher β} (h : ∀ o, (f o).Refuses t) :
    (Matcher.offset >>= f).Refuses t :=
  Takes.refuses Takes.offset fun o _ => h o

protected theorem Refuses.named (rule : Rule) (h : p.Refuses t) : (named rule p).Refuses t := by
  intro o
  rw [result_named, h o]

protected theorem Refuses.both (hp : p.Refuses t) (hq : q.Refuses t) : (orElse p q).Refuses t := by
  intro o
  rw [result_orElse, hp o, hq o]
  rfl

protected theorem Refuses.all {choices : List (Matcher α)} (h : ∀ p ∈ choices, p.Refuses t) :
    (firstOf choices).Refuses t := by
  induction choices with
  | nil => exact fun _ => rfl
  | cons p rest ih =>
    obtain ⟨hp, hrest⟩ := List.forall_mem_cons.mp h
    exact hp.both (ih hrest)

protected theorem Refuses.scan {scanner : List Char → Option Nat} (h : scanner t = none) :
    (scan scanner).Refuses t := by
  intro o
  rw [result_scan]
  simp [h]

protected theorem Refuses.token {rule : Rule} {scanner : List Char → Option Nat}
    (h : scanner t = none) : (token rule scanner).Refuses t :=
  (Refuses.scan h).named rule

protected theorem Refuses.lexeme (h : p.Refuses t) : (lexeme p).Refuses t := by
  intro o
  have hr := h o
  unfold Matcher.lexeme
  rcases hp : p ⟨o, t⟩ with ⟨_ | ⟨b, c⟩, furthest⟩
  · rfl
  · rw [hp] at hr
    cases hr

protected theorem Refuses.some1 (h : p.Refuses t) : (some1 p).Refuses t := by
  intro o
  have hbind : (p >>= fun a => many p >>= fun rest => Pure.pure (a :: rest)).Refuses t := h.bind
  unfold Matcher.some1
  split
  · rfl
  · exact hbind o

/-! ## Repetition -/

/-- A text is made of pieces that the matcher takes one after the other, each of which has to do
with one of some things. After them it takes no more. -/
inductive TakesAll (p : Matcher α) (R : α → β → Prop) : List Char → List Char → List β → Prop
  | nil {t : List Char} (h : t = [] ∨ p.Refuses t) : TakesAll p R [] t []
  | cons {s s' t : List Char} {b : β} {bs : List β} (hs : s ≠ [])
      (h : p.Takes s (s' ++ t) (R · b)) (hrest : TakesAll p R s' t bs) :
      TakesAll p R (s ++ s') t (b :: bs)

theorem TakesAll.manyUpTo {R : α → β → Prop} {bs : List β} (h : TakesAll p R s t bs) (n : Nat)
    (hn : (s ++ t).length ≤ n) : (manyUpTo p n).Takes s t fun as => List.Forall₂ R as bs := by
  induction h generalizing n with
  | nil h =>
    cases n with
    | zero => exact Takes.pure .nil
    | succ n =>
      refine Takes.skip (Refuses.optional h) fun found hfound => ?_
      subst hfound
      exact Takes.pure .nil
  | cons hs h hrest ih =>
    cases n with
    | zero => simp [hs] at hn
    | succ n =>
      have hlength := List.length_pos_iff.mpr hs
      refine Takes.bind (h.optional hs) fun found hfound => ?_
      obtain ⟨a, rfl, ha⟩ := hfound
      refine Takes.map (ih n ?_) fun as has => .cons ha has
      simp only [List.length_append] at hn ⊢
      omega

/-- The pieces are all that there are. -/
theorem TakesAll.many {R : α → β → Prop} {bs : List β} (h : TakesAll p R s t bs) :
    (many p).Takes s t fun as => List.Forall₂ R as bs :=
  fun o => h.manyUpTo _ (Nat.le_refl _) o

/-- One or more pieces. -/
theorem TakesAll.some1 {R : α → β → Prop} {b : β} {bs : List β} (h : TakesAll p R s t (b :: bs)) :
    (some1 p).Takes s t fun _ => True := by
  cases h with
  | @cons s s' _ _ _ hs h hrest =>
    intro o
    have hbind : Takes (p >>= fun a => Matcher.many p >>= fun rest => Pure.pure (a :: rest))
        (s ++ s') t fun _ => True :=
      h.bind fun a _ => Takes.map hrest.many fun _ _ => trivial
    obtain ⟨as, -, has⟩ := hbind o
    refine ⟨as, trivial, ?_⟩
    unfold Matcher.some1
    rw [if_neg (by simp [hs])]
    exact has

end Stencil.Source.Matcher
