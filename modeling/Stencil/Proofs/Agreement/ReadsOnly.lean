import Mathlib.Data.List.TakeWhile
import Stencil.Proofs.Agreement.Balanced
import Stencil.Proofs.Places.Surface

/-!
# What a matcher has read

An account of a matcher relates, whenever it succeeds, its value, what it has read and what follows;
and it has moved on by as many characters as it has read. There is one rule for every way that
matchers are built. A matcher reads only texts of a language if this is its account, whatever the
value and what follows. So the text that is found between a pair of brackets is balanced.
-/

namespace Stencil.Source

namespace Matcher

variable {α β : Type} {p q : Matcher α} {f : α → Matcher β}

section

variable {L : α → List Char → List Char → Prop} {N : β → List Char → List Char → Prop}

/-- Whenever the matcher succeeds, its value, what it has read and what follows are as said. -/
def Accounts (p : Matcher α) (L : α → List Char → List Char → Prop) : Prop :=
  ∀ ⦃c a c'⦄, (p c).result = some (a, c') →
    ∃ s, L a s c'.rest ∧ c.rest = s ++ c'.rest ∧ c'.offset = c.offset + s.length

namespace Accounts

protected theorem pure {a : α} (h : ∀ t, L a [] t) : Accounts (Pure.pure a) L := by
  intro c b c' hr
  cases hr
  exact ⟨[], h _, rfl, rfl⟩

protected theorem bind {M : α → β → List Char → List Char → Prop} (hp : p.Accounts L)
    (hf : ∀ a, (f a).Accounts (M a))
    (happend : ∀ {a b u v t}, L a u (v ++ t) → M a b v t → N b (u ++ v) t) :
    (p >>= f).Accounts N := by
  intro c b c' hr
  rw [result_bind] at hr
  obtain ⟨⟨a, d⟩, hd, hr⟩ := Option.bind_eq_some_iff.mp hr
  obtain ⟨u, hu, hrest, hoffset⟩ := hp hd
  obtain ⟨v, hv, hrest', hoffset'⟩ := hf a hr
  refine ⟨u ++ v, happend (hrest' ▸ hu) hv, ?_, ?_⟩
  · rw [hrest, hrest', List.append_assoc]
  · rw [hoffset', hoffset, List.length_append, Nat.add_assoc]

protected theorem named (rule : Rule) (h : p.Accounts L) : (named rule p).Accounts L := by
  intro c a c' hr
  rw [result_named] at hr
  exact h hr

protected theorem orElse (hp : p.Accounts L) (hq : q.Accounts L) : (orElse p q).Accounts L := by
  intro c a c' hr
  rw [result_orElse] at hr
  rcases Option.or_eq_some_iff.mp hr with hr | ⟨-, hr⟩
  · exact hp hr
  · exact hq hr

protected theorem scan {scanner : Scanner} {L : List Char → List Char → Prop} (hfits : Fits scanner)
    (h : ∀ {text n}, scanner text = some n → L (text.take n) (text.drop n)) :
    (scan scanner).Accounts fun _ => L := by
  intro c l c' hr
  rw [result_scan] at hr
  obtain ⟨n, hn, hr⟩ := Option.map_eq_some_iff.mp hr
  cases hr
  refine ⟨c.rest.take n, h hn, (List.take_append_drop n c.rest).symm, ?_⟩
  rw [List.length_take_of_le (hfits c.rest n hn)]

/-- The lexeme is what was read. -/
protected theorem lexeme {L : List Char → List Char → Prop} (hp : p.Accounts fun _ => L) :
    (lexeme p).Accounts fun l s t => l.chars = s ∧ L s t := by
  intro c l c' hr
  unfold lexeme at hr
  rcases hpc : p c with ⟨_ | ⟨a, d⟩, furthest⟩ <;> rw [hpc] at hr <;> cases hr
  obtain ⟨s, hs, hrest, hoffset⟩ := hp (congrArg Outcome.result hpc)
  refine ⟨s, ⟨?_, hs⟩, hrest, hoffset⟩
  rw [hrest, hoffset, Nat.add_sub_cancel_left, List.take_left]

/-- A matcher that stays in every source has read something. -/
theorem of_stays (h : ∀ source, p.StaysIn source) : p.Accounts fun _ _ _ => True := by
  intro c a c' hr
  -- the cursor sits in the source that has as many characters in front of it as it says
  have hdrop (n : Nat) : (List.replicate c.offset ' ' ++ c.rest).drop (c.offset + n) =
      c.rest.drop n := by
    rw [← List.drop_drop]
    congr 1
    exact List.drop_left' List.length_replicate
  have hlength : (List.replicate c.offset ' ' ++ c.rest).length = c.offset + c.rest.length := by
    rw [List.length_append, List.length_replicate]
  have hsits : c.Sits (List.replicate c.offset ' ' ++ c.rest) :=
    ⟨by rw [hlength]; exact Nat.le_add_right .., (hdrop 0).symm⟩
  obtain ⟨-, hc', hle⟩ := (h _ hsits).1 _ hr
  obtain ⟨n, hn⟩ : ∃ n, c'.offset = c.offset + n := ⟨_, (Nat.add_sub_cancel' hle).symm⟩
  have hbound := hc'.offset_le
  rw [hlength, hn, Nat.add_le_add_iff_left] at hbound
  refine ⟨c.rest.take n, trivial, ?_, ?_⟩
  · rw [hc'.rest_eq, hn, hdrop, List.take_append_drop]
  · rw [hn, List.length_take_of_le hbound]

end Accounts

end

variable {L M : List Char → Prop}

/-- Whenever the matcher succeeds, it has read a text of the language. -/
def ReadsOnly (p : Matcher α) (L : List Char → Prop) : Prop :=
  ∀ ⦃c a c'⦄, (p c).result = some (a, c') →
    ∃ s, L s ∧ c.rest = s ++ c'.rest ∧ c'.offset = c.offset + s.length

namespace ReadsOnly

protected theorem pure {a : α} (h : L []) : ReadsOnly (Pure.pure a) L :=
  Accounts.pure (L := fun _ s _ => L s) fun _ => h

protected theorem bind (hp : p.ReadsOnly L) (hf : ∀ a, (f a).ReadsOnly M) {N : List Char → Prop}
    (happend : ∀ {u v}, L u → M v → N (u ++ v)) : (p >>= f).ReadsOnly N :=
  Accounts.bind (L := fun _ s _ => L s) (M := fun _ _ s _ => M s) (N := fun _ s _ => N s) hp hf
    fun hu hv => happend hu hv

/-- What is done with the value reads nothing more. -/
protected theorem map {g : α → β} (hp : p.ReadsOnly L) : ReadsOnly (do return g (← p)) L :=
  hp.bind (M := (· = [])) (fun _ => ReadsOnly.pure rfl) fun hu hv => by rwa [hv, List.append_nil]

protected theorem named (rule : Rule) (h : p.ReadsOnly L) : (named rule p).ReadsOnly L :=
  Accounts.named (L := fun _ s _ => L s) rule h

protected theorem orElse (hp : p.ReadsOnly L) (hq : q.ReadsOnly L) : (orElse p q).ReadsOnly L :=
  Accounts.orElse (L := fun _ s _ => L s) hp hq

protected theorem firstOf {choices : List (Matcher α)} (h : ∀ p ∈ choices, p.ReadsOnly L) :
    (firstOf choices).ReadsOnly L := by
  induction choices with
  | nil =>
    intro c a c' hr
    cases hr
  | cons p rest ih =>
    obtain ⟨hp, hrest⟩ := List.forall_mem_cons.mp h
    exact hp.orElse (ih hrest)

protected theorem scan {scanner : Scanner} (hfits : Fits scanner)
    (h : ∀ {text n}, scanner text = some n → L (text.take n)) : (scan scanner).ReadsOnly L :=
  Accounts.scan (L := fun s _ => L s) hfits h

protected theorem token {rule : Rule} {scanner : Scanner} (hfits : Fits scanner)
    (h : ∀ {text n}, scanner text = some n → L (text.take n)) :
    (token rule scanner).ReadsOnly L :=
  (ReadsOnly.scan hfits h).named rule

protected theorem optional (h : p.ReadsOnly L) (hnil : L []) : (optional p).ReadsOnly L := by
  intro c found c' hr
  rw [result_optional] at hr
  split at hr
  · cases hr
    exact ⟨[], hnil, rfl, rfl⟩
  · cases hp : (p c).result with
    | none =>
      rw [hp] at hr
      cases hr
      exact ⟨[], hnil, rfl, rfl⟩
    | some r =>
      rw [hp] at hr
      cases hr
      exact h hp

/-- One piece after the other, in a language that is closed under this. -/
theorem many (h : p.ReadsOnly L) (hnil : L []) (happend : ∀ {u v}, L u → L v → L (u ++ v)) :
    (many p).ReadsOnly L := by
  have hupTo (n : Nat) : (manyUpTo p n).ReadsOnly L := by
    induction n with
    | zero => exact ReadsOnly.pure hnil
    | succ n ih =>
      refine ReadsOnly.bind (h.optional hnil) (M := L) (fun found => ?_) happend
      cases found with
      | none => exact ReadsOnly.pure hnil
      | some a => exact ih.map
  exact fun c _ _ hr => hupTo c.rest.length hr

end ReadsOnly

end Matcher

open Matcher

/-! ## Scanners -/

theorem run1_eq_some {p : Char → Bool} {text : List Char} {n : Nat} (h : run1 p text = some n) :
    ∀ c ∈ text.take n, p c := by
  have hn : n = run p text := by
    unfold run1 at h
    dsimp only at h
    split at h
    · cases h
    · exact (Option.some.inj h).symm
  have htake : text.take n = text.takeWhile p := by
    rw [hn]
    exact (List.prefix_iff_eq_take.mp (List.takeWhile_prefix p)).symm
  intro c hc
  rw [htake] at hc
  exact List.mem_takeWhile_imp hc

theorem literal_eq_some {word text : List Char} {n : Nat} (h : literal word text = some n) :
    text.take n = word := by
  unfold literal at h
  split at h
  · next hword =>
    cases h
    exact (List.prefix_iff_eq_take.mp (List.isPrefixOf_iff_prefix.mp hword)).symm
  · cases h

theorem quotedRest_eq_some {quote : Char} {text : List Char} {n : Nat}
    (h : quotedRest quote false text = some n) :
    ∃ body, IsStringBody quote body ∧ text.take n = body ++ [quote] := by
  fun_induction quotedRest quote false text generalizing n with
  | case1 => cases h
  | case2 => cases h
  | case3 c rest hline ih =>
    obtain ⟨m, hm, rfl⟩ := Option.map_eq_some_iff.mp h
    obtain ⟨body, hbody, htake⟩ := ih hm
    refine ⟨'\\' :: c :: body, .escaped (by simpa using hline) hbody, ?_⟩
    exact congrArg ('\\' :: c :: ·) htake
  | case4 c rest _ hquote =>
    cases h
    exact ⟨[], .nil, congrArg (· :: []) (beq_iff_eq.mp hquote)⟩
  | case5 => cases h
  | case6 c rest _ hquote hplain ih =>
    obtain ⟨m, hm, rfl⟩ := Option.map_eq_some_iff.mp h
    obtain ⟨body, hbody, htake⟩ := ih hm
    have hplain : c ≠ '\\' ∧ c ≠ '\n' := by simpa using hplain
    refine ⟨c :: body, .plain (by simpa using hquote) hplain.1 hplain.2 hbody, ?_⟩
    exact congrArg (c :: ·) htake

theorem exprString_eq_some {text : List Char} {n : Nat} (h : exprString text = some n) :
    Balanced true (text.take n) := by
  have hquoted {quote : Char} {rest : List Char} (hquote : quote = '"' ∨ quote = '\'')
      (h : (quotedRest quote false rest).map (· + 1) = some n) :
      Balanced true ((quote :: rest).take n) := by
    obtain ⟨m, hm, rfl⟩ := Option.map_eq_some_iff.mp h
    obtain ⟨body, hbody, htake⟩ := quotedRest_eq_some hm
    rw [List.take_succ_cons, htake]
    exact .string hquote hbody .nil
  unfold exprString at h
  split at h
  · exact hquoted (.inl rfl) h
  · exact hquoted (.inr rfl) h
  · cases h

/-! ## Balanced texts -/

theorem readsOnly_stringPiece : stringPiece.ReadsOnly (Balanced true) :=
  (ReadsOnly.token fits_exprString exprString_eq_some).map

theorem readsOnly_code : ReadsOnly (do let _ ← token .exprCode code) (Balanced true) :=
  (ReadsOnly.token (fits_run1 isCode) fun h => .of_code (run1_eq_some h)).map

theorem readsOnly_literal (word : List Char) : (scan (literal word)).ReadsOnly (· = word) :=
  ReadsOnly.scan (fits_literal word) literal_eq_some

theorem readsOnly_bracketed {inner : Matcher Unit} (h : inner.ReadsOnly (Balanced true))
    (rule : Rule) {opening closing : Char} (hpair : closing? opening = some closing) :
    (bracketed rule opening closing inner).ReadsOnly (Balanced true) := by
  have hinner : ReadsOnly (do inner; let _ ← scan (literal [closing]))
      fun v => ∃ s, Balanced true s ∧ v = s ++ [closing] :=
    h.bind (fun _ => (readsOnly_literal [closing]).map) fun hu hv => ⟨_, hu, by rw [hv]⟩
  refine ReadsOnly.named rule ((readsOnly_literal [opening]).bind (fun _ => hinner) ?_)
  rintro _ _ rfl ⟨s, hs, rfl⟩
  exact .group hpair (fun _ => rfl) hs .nil

theorem readsOnly_piece {inner : Matcher Unit} (h : inner.ReadsOnly (Balanced true)) :
    (balanced.piece inner).ReadsOnly (Balanced true) := by
  rw [piece_eq]
  refine ReadsOnly.firstOf ?_
  simp only [closedChoices, List.cons_append, List.nil_append, List.forall_mem_cons]
  exact ⟨readsOnly_stringPiece, readsOnly_bracketed h _ rfl, readsOnly_bracketed h _ rfl,
    readsOnly_bracketed h _ rfl, readsOnly_code, List.forall_mem_nil _⟩

theorem readsOnly_balanced (n : Nat) : ReadsOnly (balanced n) (Balanced true) := by
  induction n with
  | zero => exact ReadsOnly.pure .nil
  | succ n ih =>
    rw [balanced_succ]
    exact (ReadsOnly.many (readsOnly_piece ih) .nil .append).map

/-- **Whatever stands between brackets is balanced.** -/
theorem readsOnly_exprBody : exprBody.ReadsOnly (Balanced true) :=
  fun c _ _ h => readsOnly_balanced c.rest.length h

end Stencil.Source
