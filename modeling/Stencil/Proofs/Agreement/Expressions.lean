import Stencil.Proofs.Agreement.Balanced
import Stencil.Proofs.Agreement.Texts
import Stencil.Source.Read

/-!
# Spelled expressions

A balanced text is found as an expression between brackets and in front of a block, an identifier
also in front of an arrow. What is found is the expression that was spelled.
-/

namespace Stencil.Source

open Matcher

/-! ## Texts that can be embedded -/

/-- A text that can stand in a template as an expression: it is balanced, there is something in it,
and no blank is at either end. -/
structure Embeds (braces : Bool) (s : List Char) : Prop where
  balanced : Balanced braces s
  ne_nil : s ≠ []
  trim : Text.trim s = s

theorem Embeds.mono {s : List Char} (h : Embeds false s) : Embeds true s :=
  ⟨h.balanced.mono, h.ne_nil, h.trim⟩

theorem embeds_identifier {braces : Bool} {s : List Char} (h : isIdentifier s) :
    Embeds braces s where
  balanced := .of_code fun c hc => code_of_identifierChar (identifierChars h c hc)
  ne_nil := isIdentifier_ne_nil h
  trim := (isHeld_identifier h).trim

theorem takes_condition {s : List Char} (hs : Embeds false s) (t : List Char) :
    condition.Takes (s ++ [' ']) ('{' :: t) fun l => l.chars = s ++ [' '] := by
  have hspace : Balanced false [' '] := .of_code (List.forall_mem_singleton.mpr (by decide))
  exact takes_condition_balanced (hs.balanced.append hspace) (by simp) t

/-! ## In front of arrows -/

/-- Text without strings and brackets is a single piece. -/
theorem takesAll_piece {before : List (Matcher Unit)} {rule : Rule} {scanner : Scanner}
    {s t : List Char} (hs : s ≠ []) (hbefore : ∀ p ∈ before, p.Refuses (s ++ t))
    (hstop : ∀ p ∈ before, p.Refuses t) (htake : scanner (s ++ t) = some s.length)
    (hnone : scanner t = none) :
    TakesAll (firstOf (before ++ [do let _ ← token rule scanner])) (fun _ (_ : Unit) => True) s t
      [()] := by
  have hpiece : (firstOf (before ++ [do let _ ← token rule scanner])).Takes s t fun _ => True :=
    Refuses.firstOf_append hbefore
      (Takes.firstOf ((Takes.token htake).map fun _ _ => trivial))
  have hend : (firstOf (before ++ [do let _ ← token rule scanner])).Refuses t := by
    refine Refuses.all fun p hp => ?_
    rcases List.mem_append.mp hp with hp | hp
    · exact hstop p hp
    · rw [List.mem_singleton.mp hp]
      exact (Refuses.token hnone).bind
  have hpiece : (firstOf (before ++ [do let _ ← token rule scanner])).Takes s ([] ++ t)
    fun _ => True := hpiece
  simpa using TakesAll.cons hs hpiece (.nil (.inr hend))

theorem refuses_before_identifier {s : List Char} (hs : isIdentifier s) (t : List Char) :
    ∀ p ∈ closedPieces, p.Refuses (s ++ t) := by
  have hcode := identifierChars hs
  obtain ⟨c, more, rfl, -, -⟩ := of_isIdentifier hs
  exact refuses_closedPieces
    (isFlat_code (code_of_identifierChar (hcode c (List.mem_cons_self ..)))).1 _

theorem patternCodeLength_append {s : List Char} (hs : ∀ c ∈ s, isCode c ∧ c ≠ '=')
    (t : List Char) :
    patternCodeLength (s ++ '=' :: '>' :: t) = s.length := by
  induction s with
  | nil => rfl
  | cons c s ih =>
    obtain ⟨⟨hc, hne⟩, hs⟩ := List.forall_mem_cons.mp hs
    rw [List.cons_append, patternCodeLength.eq_def]
    simp [hc, hne, ih hs, Nat.add_comm]

theorem takes_patternExpr {s : List Char} (hs : isIdentifier s) (t : List Char) :
    patternExpr.Takes (s ++ [' ']) ('=' :: '>' :: t) fun l => l.chars = s ++ [' '] := by
  have hchars : ∀ c ∈ s ++ [' '], isCode c ∧ c ≠ '=' := by
    simp only [List.forall_mem_append, List.forall_mem_singleton]
    refine ⟨fun c hc => ?_, by decide⟩
    simpa using of_identifierChar (p := fun c => isCode c && c != '=') (by decide)
      (identifierChars hs c hc)
  have htake : patternCode (s ++ [' '] ++ '=' :: '>' :: t) = some (s ++ [' ']).length := by
    rw [patternCode, patternCodeLength_append hchars]
    simp
  refine (TakesAll.some1 (takesAll_piece (by simp) ?_
    (refuses_closedPieces (by simp [IsFlat]) _) htake (by rfl))).lexeme.named _
  rw [List.append_assoc]
  exact refuses_before_identifier hs _

/-! ## What is read -/

theorem ofSource_of_trim {e : Expr} {text : String} (hne : e.source ≠ "")
    (htrim : Text.trim text.toList = e.source.toList) (place : Option Location) :
    ∃ e' : Expr, Expr.ofSource text place = .ok e' ∧ e'.source = e.source := by
  have hsource : String.ofList (Text.trim text.toList) = e.source := by
    rw [htrim, String.ofList_toList]
  unfold Expr.ofSource
  dsimp only
  split
  · next hempty =>
    rw [hsource] at hempty
    exact absurd (String.isEmpty_iff.mp hempty) hne
  · split
    · exact ⟨_, rfl, hsource⟩
    · next hnone =>
      rw [hsource, e.reads] at hnone
      cases hnone

/-- The lexeme is read as an expression with the same source. -/
def Lexeme.Spells (l : Lexeme) (e : Expr) : Prop :=
  ∀ source, ∃ e' : Expr, readExpr source l = .ok e' ∧ e'.source = e.source

theorem Lexeme.spells_of_trim {l : Lexeme} {e : Expr} (hne : e.source.toList ≠ [])
    (hl : Text.trim l.chars = e.source.toList) : l.Spells e := by
  intro source
  refine ofSource_of_trim (fun hempty => ?_) (by rwa [Lexeme.text, String.toList_ofList]) _
  rw [hempty] at hne
  exact hne rfl

theorem Lexeme.spells {l : Lexeme} {e : Expr} (he : Embeds true e.source.toList)
    (hl : l.chars = e.source.toList) : l.Spells e :=
  spells_of_trim he.ne_nil (by rw [hl, he.trim])

/-- A space behind an expression does not count. -/
theorem Lexeme.spells_spaced {l : Lexeme} {e : Expr} (he : Embeds true e.source.toList)
    (hl : l.chars = e.source.toList ++ [' ']) : l.Spells e :=
  spells_of_trim he.ne_nil (by rw [hl, trim_append_space he.ne_nil he.trim])

end Stencil.Source
