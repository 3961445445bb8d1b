import Stencil.Proofs.Markup.Scan
import Stencil.Render.Call

/-!
# What is written for values is inert

A value is written as its text with five characters replaced by entities, and that is inert whatever
the text is. Numbers are written as they are; their texts consist of digits, letters, points and
signs.
-/

namespace Stencil

open Markup

/-! ## Escaping -/

namespace Text

theorem escapeChars_cons (c : Char) (rest : List Char) :
    escapeChars (c :: rest) = escapeChars [c] ++ escapeChars rest := by
  simp [escapeChars, replaceChar, List.flatMap_append]

theorem escapeChars_plain {c : Char} (hc : c ∉ specials) : escapeChars [c] = [c] := by
  simp only [specials, List.mem_cons, List.not_mem_nil, or_false, not_or] at hc
  simp [escapeChars, replaceChar, hc]

theorem escapeChars_special {c : Char} (hc : c ∈ specials) :
    ∃ body ∈ entities, escapeChars [c] = '&' :: body := by
  simp only [specials, List.mem_cons, List.not_mem_nil, or_false] at hc
  rcases hc with rfl | rfl | rfl | rfl | rfl
  · exact ⟨['a', 'm', 'p', ';'], by decide, by decide⟩
  · exact ⟨['l', 't', ';'], by decide, by decide⟩
  · exact ⟨['g', 't', ';'], by decide, by decide⟩
  · exact ⟨['q', 'u', 'o', 't', ';'], by decide, by decide⟩
  · exact ⟨['#', 'x', '2', '7', ';'], by decide, by decide⟩

theorem escapeChars_of_plain {text : List Char} (h : ∀ c ∈ text, c ∉ specials) :
    escapeChars text = text := by
  induction text with
  | nil => rfl
  | cons c rest ih =>
    obtain ⟨hc, hrest⟩ := List.forall_mem_cons.mp h
    rw [escapeChars_cons, escapeChars_plain hc, ih hrest, List.singleton_append]

/-- A text without special characters is written as it is. -/
theorem escape_of_plain {text : String} (h : ∀ c ∈ text.toList, c ∉ specials) :
    escape text = text := by
  rw [escape, escapeChars_of_plain h, String.ofList_toList]

theorem inert_escapeChars (text : List Char) : Inert (escapeChars text) := by
  induction text with
  | nil => exact .nil
  | cons c rest ih =>
    rw [escapeChars_cons]
    by_cases hc : c ∈ specials
    · obtain ⟨body, hbody, heq⟩ := escapeChars_special hc
      rw [heq]
      exact ih.entity hbody
    · rw [escapeChars_plain hc]
      exact ih.char hc

/-- **An escaped text is inert.** -/
theorem inert_escape (text : String) : Inert (escape text).toList := by
  rw [escape, String.toList_ofList]
  exact inert_escapeChars text.toList

end Text

/-! ## Numbers -/

namespace Number

/-- A character of the text of a number that is neither infinite nor undefined. -/
def isNumeral (c : Char) : Bool :=
  c.isDigit || c == '.' || c == 'e' || c == '+' || c == '-'

theorem plain_of_numeral {c : Char} (h : isNumeral c = true) : c ∉ specials := by
  intro hc
  simp only [specials, List.mem_cons, List.not_mem_nil, or_false] at hc
  rcases hc with rfl | rfl | rfl | rfl | rfl <;> exact absurd h (by decide)

theorem numeral_toDigits {n : Nat} {c : Char} (h : c ∈ Nat.toDigits 10 n) : isNumeral c = true := by
  simp [isNumeral, Nat.isDigit_of_mem_toDigits (by decide) (by decide) h]

theorem numeral_replicate {n : Nat} {c : Char} (h : c ∈ List.replicate n '0') :
    isNumeral c = true := by
  rw [List.eq_of_mem_replicate h]
  decide

theorem numeral_shortestDigits (m : Nat) (q : Int) :
    ∀ c ∈ (shortestDigits m q).1, isNumeral c = true := by
  intro c hc
  unfold shortestDigits at hc
  dsimp only at hc
  split at hc
  · rw [List.mem_singleton.mp hc]
    decide
  · next digit _ _ =>
    have hdigits : c ∈ (Nat.toDigits 10 digit).reverse :=
      (List.dropWhile_sublist _).subset (List.mem_reverse.mp hc)
    exact numeral_toDigits (List.mem_reverse.mp hdigits)

theorem numeral_positional {digits : List Char} (h : ∀ c ∈ digits, isNumeral c = true)
    (exponent : Int) : ∀ c ∈ positional digits exponent, isNumeral c = true := by
  have hpadded : ∀ n, ∀ c ∈ digits ++ List.replicate n '0', isNumeral c = true := by
    intro n c hc
    rcases List.mem_append.mp hc with hc | hc
    · exact h c hc
    · exact numeral_replicate hc
  intro c hc
  unfold positional at hc
  split at hc
  · simp only [List.cons_append, List.mem_cons, List.mem_append] at hc
    rcases hc with rfl | rfl | hc | hc
    · decide
    · decide
    · exact numeral_replicate hc
    · exact h c hc
  · simp only [List.mem_append, List.mem_cons] at hc
    rcases hc with hc | rfl | hc
    · exact hpadded _ c (List.mem_of_mem_take hc)
    · decide
    · split at hc
      · rw [List.mem_singleton.mp hc]
        decide
      · exact hpadded _ c (List.mem_of_mem_drop hc)

theorem numeral_scientific {digits : List Char} (h : ∀ c ∈ digits, isNumeral c = true) (width : Nat)
    (exponent : Int) : ∀ c ∈ scientific width digits exponent, isNumeral c = true := by
  intro c hc
  unfold scientific padZeros at hc
  simp only [List.mem_append, List.mem_cons] at hc
  rcases hc with (hc | hc) | rfl | rfl | hc | hc
  · exact h c (List.mem_of_mem_take hc)
  · split at hc
    · cases hc
    · rcases List.mem_cons.mp hc with rfl | hc
      · decide
      · exact h c (List.mem_of_mem_drop hc)
  · decide
  · split <;> decide
  · exact numeral_replicate hc
  · exact numeral_toDigits hc

theorem numeral_layOut {digits : List Char} (h : ∀ c ∈ digits, isNumeral c = true) (l : Layout)
    (exponent : Int) : ∀ c ∈ layOut l digits exponent, isNumeral c = true := by
  unfold layOut
  split
  · exact numeral_positional h exponent
  · exact numeral_scientific h l.exponentWidth exponent

theorem plain_sign (negative : Bool) {text : List Char} (h : ∀ c ∈ text, c ∉ specials) :
    ∀ c ∈ (if negative then ['-'] else []) ++ text, c ∉ specials := by
  cases negative
  · exact h
  · exact List.forall_mem_cons.mpr ⟨by decide, h⟩

theorem plain_floatChars (x : Float) : ∀ c ∈ floatChars x, c ∉ specials := by
  unfold floatChars
  split
  · simp [specials]
  · exact plain_sign _ (by simp [specials])
  · refine plain_sign _ fun c hc => plain_of_numeral ?_
    split at hc
    · simp only [List.mem_cons, List.not_mem_nil, or_false] at hc
      rcases hc with rfl | rfl | rfl <;> decide
    · exact numeral_layOut (numeral_shortestDigits _ _) layout _ c hc

theorem plain_intChars (n : Int) : ∀ c ∈ intChars 10 n, c ∉ specials := by
  have hdigits : ∀ c ∈ Nat.toDigits 10 n.natAbs, c ∉ specials :=
    fun _ hc => plain_of_numeral (numeral_toDigits hc)
  unfold intChars
  split
  · exact List.forall_mem_cons.mpr ⟨by decide, hdigits⟩
  · exact hdigits

end Number

/-! ## Values -/

namespace Value

/-- The text of a number has nothing in it that is escaped. -/
theorem plain_number {v : Value} (h : v.isNumber = true) {text : String}
    (ht : v.written = .ok text) : ∀ c ∈ text.toList, c ∉ specials := by
  cases v <;> cases h
  · next n =>
    change shownInt n = .ok text at ht
    unfold shownInt at ht
    split at ht
    · cases ht
    · cases ht
      rw [Number.intText, String.toList_ofList]
      exact Number.plain_intChars n
  · next x =>
    change Except.ok (Number.floatText x) = .ok text at ht
    cases ht
    rw [Number.floatText, String.toList_ofList]
    exact Number.plain_floatChars x

/-- **What is written for a value is inert.** -/
theorem inert_markup {v : Value} {text : String} (h : v.markup = .ok text) : Inert text.toList := by
  unfold markup at h
  cases hw : v.written with
  | error e =>
    rw [hw] at h
    cases h
  | ok written =>
    rw [hw] at h
    replace h : (if v.needsEscaping then Text.escape written else written) = text :=
      Except.ok.inj h
    subst h
    split
    · exact Text.inert_escape written
    · next hneeds =>
      cases v <;> first
        | exact absurd rfl hneeds
        | exact .of_plain (plain_number rfl hw)
        | skip
      · cases hw
        exact .nil

end Value

end Stencil
