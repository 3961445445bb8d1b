import Stencil.Source.Match

/-!
# What a matcher yields

A matcher yields values with a property if every value that it succeeds with has it, wherever it is
used. There is one rule for every way that matchers are built.
-/

namespace Stencil.Source.Matcher

variable {α β : Type} {P : α → Prop} {Q : β → Prop}

/-- Every value that the matcher succeeds with has a property. -/
def Yields (p : Matcher α) (P : α → Prop) : Prop :=
  ∀ ⦃c a c'⦄, (p c).result = some (a, c') → P a

namespace Yields

theorem of_all {p : Matcher α} (h : ∀ a, P a) : Yields p P :=
  fun _ _ _ _ => h _

protected theorem pure {a : α} (h : P a) : Yields (Pure.pure a) P := by
  intro c b c' hr
  cases hr
  exact h

protected theorem bind {p : Matcher α} {f : α → Matcher β} (hp : Yields p P)
    (hf : ∀ a, P a → Yields (f a) Q) : Yields (p >>= f) Q := by
  intro c b c' hr
  change (Matcher.bind p f c).result = some (b, c') at hr
  unfold Matcher.bind at hr
  split at hr
  · cases hr
  · next a c₁ furthest hpc =>
    exact hf a (hp (congrArg Outcome.result hpc)) hr

/-- What the first matcher yields does not matter. -/
theorem after {p : Matcher α} {f : α → Matcher β} (hf : ∀ a, Yields (f a) Q) :
    Yields (p >>= f) Q :=
  Yields.bind (of_all fun _ => trivial : Yields p fun _ => True) fun a _ => hf a

protected theorem fail : Yields (Matcher.fail : Matcher α) P :=
  nofun

protected theorem orElse {p q : Matcher α} (hp : Yields p P) (hq : Yields q P) :
    Yields (Matcher.orElse p q) P := by
  intro c a c' hr
  unfold Matcher.orElse at hr
  split at hr
  · exact hq hr
  · exact hp hr

protected theorem firstOf {choices : List (Matcher α)} (h : ∀ p ∈ choices, Yields p P) :
    Yields (Matcher.firstOf choices) P := by
  induction choices with
  | nil => exact Yields.fail
  | cons p rest ih =>
    exact (h p (List.mem_cons_self ..)).orElse (ih fun q hq => h q (List.mem_cons_of_mem _ hq))

protected theorem named {p : Matcher α} (rule : Rule) (h : Yields p P) :
    Yields (Matcher.named rule p) P := by
  intro c a c' hr
  unfold Matcher.named at hr
  split at hr
  · cases hr
  · exact h hr

/-- A lexeme is what the scanner takes from the text. -/
theorem scan {scanner : List Char → Option Nat} {P : Lexeme → Prop}
    (h : ∀ text n offset, scanner text = some n → P ⟨offset, text.take n⟩) :
    Yields (Matcher.scan scanner) P := by
  intro c a c' hr
  unfold Matcher.scan at hr
  split at hr
  · cases hr
  · next n hn =>
    cases hr
    exact h c.rest n c.offset hn

theorem token {rule : Rule} {scanner : List Char → Option Nat} {P : Lexeme → Prop}
    (h : ∀ text n offset, scanner text = some n → P ⟨offset, text.take n⟩) :
    Yields (Matcher.token rule scanner) P :=
  (Yields.scan h).named rule

protected theorem optional {p : Matcher α} (h : Yields p P) :
    Yields (Matcher.optional p) fun o => ∀ a ∈ o, P a := by
  intro c o c' hr
  unfold Matcher.optional at hr
  split at hr
  · cases hr
    nofun
  split at hr
  · cases hr
    nofun
  · next a c₁ furthest hpc =>
    cases hr
    intro b hb
    cases hb
    exact h (congrArg Outcome.result hpc)

theorem manyUpTo {p : Matcher α} (h : Yields p P) (n : Nat) :
    Yields (Matcher.manyUpTo p n) fun l => ∀ a ∈ l, P a := by
  induction n with
  | zero => exact Yields.pure nofun
  | succ n ih =>
    refine h.optional.bind fun o ho => ?_
    cases o with
    | none => exact Yields.pure nofun
    | some a =>
      exact ih.bind fun rest hrest => Yields.pure (List.forall_mem_cons.mpr ⟨ho a rfl, hrest⟩)

protected theorem many {p : Matcher α} (h : Yields p P) :
    Yields (Matcher.many p) fun l => ∀ a ∈ l, P a :=
  fun _ _ _ hr => manyUpTo h _ hr

end Yields

end Stencil.Source.Matcher
