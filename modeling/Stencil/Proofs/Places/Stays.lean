import Mathlib.Data.List.Infix
import Stencil.Source.Match

/-!
# Matchers stay in the source

A cursor sits in a source if what follows it is what follows its offset there. A matcher that starts
from such a cursor ends at one, its lexemes are pieces of the source, and the failure that it
reports is at an offset of the source. There is one rule for every way that matchers are built;
scanners have to take no more than there is.
-/

namespace Stencil.Source

/-- The cursor stands at an offset of the source, with the rest of the source in front of it. -/
structure Cursor.Sits (source : List Char) (c : Cursor) : Prop where
  offset_le : c.offset ≤ source.length
  rest_eq : c.rest = source.drop c.offset

/-- The cursor is in the source, at or behind another. -/
structure Cursor.Reaches (source : List Char) (c c' : Cursor) : Prop where
  sits : c'.Sits source
  offset_le : c.offset ≤ c'.offset

/-- The lexeme is a piece of the source, at its offset. -/
structure Lexeme.Sits (source : List Char) (l : Lexeme) : Prop where
  offset_le : l.offset ≤ source.length
  chars_prefix : l.chars <+: source.drop l.offset

/-- The scanner takes no more characters than there are. -/
def Fits (scanner : List Char → Option Nat) : Prop :=
  ∀ text, ∀ n ∈ scanner text, n ≤ text.length

theorem Cursor.sits_start (source : List Char) : Cursor.Sits source ⟨0, source⟩ :=
  ⟨Nat.zero_le _, rfl⟩

theorem Cursor.Sits.refl {source : List Char} {c : Cursor} (h : c.Sits source) :
    c.Reaches source c :=
  ⟨h, Nat.le_refl _⟩

theorem Cursor.Reaches.trans {source : List Char} {a b c : Cursor} (hab : a.Reaches source b)
    (hbc : b.Reaches source c) : a.Reaches source c :=
  ⟨hbc.sits, Nat.le_trans hab.offset_le hbc.offset_le⟩

theorem Cursor.Sits.length_rest {source : List Char} {c : Cursor} (h : c.Sits source) :
    c.rest.length = source.length - c.offset := by
  rw [h.rest_eq, List.length_drop]

theorem Cursor.Sits.advance {source : List Char} {c : Cursor} (h : c.Sits source) {n : Nat}
    (hn : n ≤ c.rest.length) : c.Reaches source ⟨c.offset + n, c.rest.drop n⟩ := by
  have hlength := h.length_rest
  have hoffset := h.offset_le
  refine ⟨⟨?_, ?_⟩, Nat.le_add_right _ _⟩
  · show c.offset + n ≤ source.length
    omega
  · show c.rest.drop n = source.drop (c.offset + n)
    rw [h.rest_eq, List.drop_drop]

theorem Cursor.Sits.lexeme {source : List Char} {c : Cursor} (h : c.Sits source) (n : Nat) :
    Lexeme.Sits source ⟨c.offset, c.rest.take n⟩ :=
  ⟨h.offset_le, h.rest_eq ▸ List.take_prefix _ _⟩

/-- What a lexeme consists of occurs in the source. -/
theorem Lexeme.Sits.isInfix {source : List Char} {l : Lexeme} (h : l.Sits source) :
    l.chars <:+: source :=
  h.chars_prefix.isInfix.trans (List.drop_suffix _ _).isInfix

namespace Matcher

variable {α β : Type} {source : List Char} {p q : Matcher α} {P : α → Prop} {Q : β → Prop}

/-- Started in the source, the matcher ends at or behind its start and in the source, with a value
as described, and no failure that it reports is beyond the source. -/
def Stays (source : List Char) (p : Matcher α) (P : α → Prop) : Prop :=
  ∀ ⦃c⦄, Cursor.Sits source c →
    (∀ r ∈ (p c).result, P r.1 ∧ c.Reaches source r.2) ∧
      ∀ f ∈ (p c).furthest, f.offset ≤ source.length

theorem laterFailure_le {a b : Option Failure} {n : Nat} (ha : ∀ f ∈ a, f.offset ≤ n)
    (hb : ∀ f ∈ b, f.offset ≤ n) : ∀ f ∈ laterFailure a b, f.offset ≤ n := by
  intro f hf
  unfold laterFailure at hf
  split at hf
  · next x y =>
    by_cases hle : x.offset ≤ y.offset
    · rw [if_pos hle] at hf
      exact hb f hf
    · rw [if_neg hle] at hf
      exact ha f hf
  · exact ha f hf
  · exact hb f hf

namespace Stays

theorem mono {P' : α → Prop} (h : p.Stays source P) (hP : ∀ a, P a → P' a) :
    p.Stays source P' := by
  intro c hc
  obtain ⟨hresult, hfurthest⟩ := h hc
  exact ⟨fun r hr => ⟨hP _ (hresult r hr).1, (hresult r hr).2⟩, hfurthest⟩

protected theorem pure {a : α} (h : P a) : Stays source (Pure.pure a) P := by
  intro c hc
  refine ⟨?_, nofun⟩
  intro r hr
  cases hr
  exact ⟨h, hc.refl⟩

protected theorem bind {f : α → Matcher β} (hp : p.Stays source P)
    (hf : ∀ a, P a → (f a).Stays source Q) : (p >>= f).Stays source Q := by
  intro c hc
  obtain ⟨hresult, hfurthest⟩ := hp hc
  show (∀ r ∈ (Matcher.bind p f c).result, _) ∧ ∀ g ∈ (Matcher.bind p f c).furthest, _
  unfold Matcher.bind
  rcases hpc : p c with ⟨_ | ⟨a, c'⟩, furthest⟩ <;> rw [hpc] at hresult hfurthest
  · exact ⟨nofun, hfurthest⟩
  · obtain ⟨ha, hc'⟩ := hresult _ rfl
    obtain ⟨hresult', hfurthest'⟩ := hf a ha hc'.sits
    refine ⟨fun r hr => ?_, laterFailure_le hfurthest hfurthest'⟩
    exact ⟨(hresult' r hr).1, hc'.trans (hresult' r hr).2⟩

/-- A step whose value is used without knowing anything about it. -/
theorem after {f : α → Matcher β} (hp : p.Stays source P) (hf : ∀ a, (f a).Stays source Q) :
    (p >>= f).Stays source Q :=
  hp.bind fun a _ => hf a

protected theorem fail : Stays source (Matcher.fail : Matcher α) P :=
  fun _ _ => ⟨nofun, nofun⟩

protected theorem orElse (hp : p.Stays source P) (hq : q.Stays source P) :
    (orElse p q).Stays source P := by
  intro c hc
  obtain ⟨hresult, hfurthest⟩ := hp hc
  obtain ⟨hresult', hfurthest'⟩ := hq hc
  unfold orElse
  rcases hpc : p c with ⟨_ | ⟨a, c'⟩, furthest⟩ <;> rw [hpc] at hresult hfurthest
  · exact ⟨hresult', laterFailure_le hfurthest hfurthest'⟩
  · exact ⟨hresult, hfurthest⟩

protected theorem firstOf {choices : List (Matcher α)} (h : ∀ p ∈ choices, p.Stays source P) :
    (firstOf choices).Stays source P := by
  induction choices with
  | nil => exact Stays.fail
  | cons p rest ih =>
    obtain ⟨hp, hrest⟩ := List.forall_mem_cons.mp h
    exact hp.orElse (ih hrest)

/-- A rule that fails does so where it was tried, which is in the source. -/
protected theorem named (rule : Rule) (h : p.Stays source P) : (named rule p).Stays source P := by
  intro c hc
  obtain ⟨hresult, hfurthest⟩ := h hc
  unfold named
  rcases hpc : p c with ⟨_ | ⟨a, c'⟩, furthest⟩ <;> rw [hpc] at hresult hfurthest
  · refine ⟨nofun, laterFailure_le hfurthest ?_⟩
    intro f hf
    cases hf
    exact hc.offset_le
  · exact ⟨hresult, hfurthest⟩

protected theorem offset : Stays source Matcher.offset (· ≤ source.length) := by
  intro c hc
  refine ⟨?_, nofun⟩
  intro r hr
  cases hr
  exact ⟨hc.offset_le, hc.refl⟩

protected theorem scan {scanner : List Char → Option Nat} (h : Fits scanner) :
    (scan scanner).Stays source fun l =>
      l.Sits source ∧ ∃ text n, scanner text = some n ∧ l.chars = text.take n := by
  intro c hc
  unfold Matcher.scan
  rcases hn : scanner c.rest with _ | n
  · exact ⟨nofun, nofun⟩
  · refine ⟨?_, nofun⟩
    intro r hr
    cases hr
    exact ⟨⟨hc.lexeme n, c.rest, n, hn, rfl⟩, hc.advance (h c.rest n hn)⟩

/-- What a scanner takes is a piece of the source. -/
theorem piece {scanner : List Char → Option Nat} (h : Fits scanner) :
    (scan scanner).Stays source (Lexeme.Sits source) :=
  (Stays.scan h).mono fun _ hl => hl.1

theorem token (rule : Rule) {scanner : List Char → Option Nat} (h : Fits scanner) :
    (token rule scanner).Stays source (Lexeme.Sits source) :=
  (piece h).named rule

protected theorem lexeme (h : p.Stays source P) : (lexeme p).Stays source (Lexeme.Sits source) := by
  intro c hc
  obtain ⟨hresult, hfurthest⟩ := h hc
  unfold lexeme
  rcases hpc : p c with ⟨_ | ⟨a, c'⟩, furthest⟩ <;> rw [hpc] at hresult hfurthest
  · exact ⟨nofun, hfurthest⟩
  · refine ⟨?_, hfurthest⟩
    intro r hr
    cases hr
    exact ⟨hc.lexeme _, (hresult _ rfl).2⟩

protected theorem optional (h : p.Stays source P) :
    (optional p).Stays source fun o => ∀ a ∈ o, P a := by
  intro c hc
  obtain ⟨hresult, hfurthest⟩ := h hc
  have hnone : ∀ r ∈ some ((none : Option α), c), (∀ a ∈ r.1, P a) ∧ c.Reaches source r.2 := by
    intro r hr
    cases hr
    exact ⟨nofun, hc.refl⟩
  unfold optional
  split
  · exact ⟨hnone, nofun⟩
  · rcases hpc : p c with ⟨_ | ⟨a, c'⟩, furthest⟩ <;> rw [hpc] at hresult hfurthest
    · exact ⟨hnone, hfurthest⟩
    · refine ⟨?_, hfurthest⟩
      intro r hr
      cases hr
      obtain ⟨ha, hc'⟩ := hresult _ rfl
      exact ⟨fun b hb => by cases hb; exact ha, hc'⟩

theorem manyUpTo (h : p.Stays source P) (n : Nat) :
    (manyUpTo p n).Stays source fun l => ∀ a ∈ l, P a := by
  induction n with
  | zero => exact Stays.pure nofun
  | succ n ih =>
    refine h.optional.bind fun o ho => ?_
    cases o with
    | none => exact Stays.pure nofun
    | some a =>
      refine ih.bind fun rest hrest => ?_
      exact Stays.pure (List.forall_mem_cons.mpr ⟨ho a rfl, hrest⟩)

protected theorem many (h : p.Stays source P) : (many p).Stays source fun l => ∀ a ∈ l, P a :=
  fun c hc => h.manyUpTo c.rest.length hc

protected theorem some1 (h : p.Stays source P) :
    (some1 p).Stays source fun l => ∀ a ∈ l, P a := by
  intro c hc
  unfold some1
  split
  · exact ⟨nofun, nofun⟩
  · have hall : (do let a ← p; let rest ← many p; return a :: rest).Stays source
        fun l => ∀ a ∈ l, P a := by
      refine h.bind fun a ha => h.many.bind fun rest hrest => ?_
      exact Stays.pure (List.forall_mem_cons.mpr ⟨ha, hrest⟩)
    exact hall hc

end Stays

end Matcher

end Stencil.Source
