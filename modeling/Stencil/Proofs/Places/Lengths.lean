import Stencil.Proofs.Places.Stays
import Stencil.Source.Control

/-!
# Scanners take what is there

No scanner takes more characters than a text has, and those that a node begins with take one at
least.
-/

namespace Stencil.Source

open Text

theorem fits_of_some {length : List Char → Nat} (h : ∀ text, length text ≤ text.length) :
    Fits fun text => some (length text) := by
  intro text n hn
  cases hn
  exact h text

/-- A scanner that is given up where its length is zero. -/
theorem fits_of_nonzero {length : List Char → Nat} (h : ∀ text, length text ≤ text.length) :
    Fits fun text => let n := length text; if n == 0 then none else some n := by
  intro text n hn
  dsimp only at hn
  split at hn
  · cases hn
  · cases hn
    exact h text

/-! ## Runs and words -/

theorem run_le (p : Char → Bool) (text : List Char) : run p text ≤ text.length :=
  (List.takeWhile_prefix p).length_le

theorem fits_run1 (p : Char → Bool) : Fits (run1 p) :=
  fits_of_nonzero (run_le p)

theorem isPrefixOf_length_le {word text : List Char} (h : word.isPrefixOf text = true) :
    word.length ≤ text.length :=
  (List.isPrefixOf_iff_prefix.mp h).length_le

theorem fits_literal (word : List Char) : Fits (literal word) := by
  intro text n hn
  unfold literal at hn
  split at hn
  · next h =>
    cases hn
    exact isPrefixOf_length_le h
  · cases hn

theorem fits_keyword (word : List Char) : Fits (keyword word) := by
  intro text n hn
  unfold keyword at hn
  split at hn
  · next h =>
    cases hn
    exact isPrefixOf_length_le (Bool.and_eq_true_iff.mp h).1
  · cases hn

/-- A keyword that was found is spelled out. -/
theorem take_keyword {word text : List Char} {n : Nat} (h : keyword word text = some n) :
    text.take n = word := by
  unfold keyword at h
  split at h
  · next hword =>
    cases h
    have hprefix := List.isPrefixOf_iff_prefix.mp (Bool.and_eq_true_iff.mp hword).1
    exact (List.prefix_iff_eq_take.mp hprefix).symm
  · cases h

theorem spaces_le (text : List Char) : spaces text ≤ text.length :=
  run_le isSpace text

theorem spacesAndComments_le (comment : Bool) (text : List Char) :
    spacesAndComments comment text ≤ text.length := by
  fun_induction spacesAndComments comment text <;>
    simp only [List.length_cons, List.length_nil] <;> omega

/-! ## Names -/

theorem tagNameRest_le (text : List Char) : tagNameRest text ≤ text.length := by
  fun_induction tagNameRest text <;> simp only [List.length_cons, List.length_nil] <;> omega

theorem fits_tagName : Fits tagName := by
  intro text n hn
  unfold tagName at hn
  split at hn
  · cases hn
  · next c rest =>
    split at hn
    · cases hn
      have := tagNameRest_le rest
      simp only [List.length_cons]
      omega
    · cases hn

theorem fits_blockName : Fits blockName := by
  intro text n hn
  unfold blockName at hn
  split at hn
  · cases hn
  next c rest =>
  split at hn
  · have hrun := run_le isTagChar rest
    dsimp only at hn
    split at hn
    · next d more hdrop =>
      have hlength := congrArg List.length hdrop
      have hmore := run_le isTagChar more
      simp only [List.length_drop, List.length_cons] at hlength
      cases hn
      simp only [List.length_cons]
      split <;> omega
    · cases hn
      simp only [List.length_cons]
      omega
  · cases hn

theorem fits_attributeName : Fits attributeName := by
  intro text n hn
  unfold attributeName at hn
  dsimp only at hn
  split at hn
  · next c rest hdrop =>
    have hlength := congrArg List.length hdrop
    have hrun := run_le isAttributeChar rest
    simp only [List.length_drop, List.length_cons] at hlength
    split at hn
    · cases hn
      omega
    · cases hn
  · cases hn

theorem namesRest_le (n : Nat) (text : List Char) : namesRest n text ≤ text.length := by
  fun_induction namesRest n text with
  | case2 n text before rest hdrop after c more hmore hhead tail ih =>
    have hbefore := congrArg List.length hdrop
    have hafter := congrArg List.length hmore
    have htail := run_le isWord more
    simp only [List.length_drop, List.length_cons] at hbefore hafter ih
    omega
  | _ => exact Nat.zero_le _

theorem fits_nameList : Fits nameList := by
  intro text n hn
  unfold nameList at hn
  split at hn
  · cases hn
  next c rest =>
  split at hn
  · cases hn
    have htail := run_le isWord rest
    have hrest := namesRest_le rest.length (rest.drop (run isWord rest))
    simp only [List.length_drop] at hrest
    simp only [List.length_cons]
    omega
  · cases hn

theorem fits_shorthandMark : Fits shorthandMark := by
  intro text n hn
  unfold shorthandMark at hn
  split at hn <;> cases hn <;> exact Nat.succ_le_succ (Nat.zero_le _)

/-! ## Quotes -/

theorem fits_between (mark : Char) : Fits (between mark) := by
  intro text n hn
  unfold between at hn
  split at hn
  · cases hn
  next c rest =>
  split at hn
  · dsimp only at hn
    split at hn
    · cases hn
      simp only [List.length_cons]
      omega
    · cases hn
  · cases hn

theorem fits_quotedRest (quote : Char) (multiline : Bool) : Fits (quotedRest quote multiline) := by
  intro text
  fun_induction quotedRest quote multiline text with
  | case1 => nofun
  | case2 c rest hc => nofun
  | case3 c rest hc ih =>
    intro n hn
    obtain ⟨m, hm, rfl⟩ := Option.map_eq_some_iff.mp hn
    exact Nat.add_le_add_right (ih m hm) 2
  | case4 =>
    intro n hn
    cases hn
    exact Nat.succ_le_succ (Nat.zero_le _)
  | case5 => nofun
  | case6 c rest _ _ _ ih =>
    intro n hn
    obtain ⟨m, hm, rfl⟩ := Option.map_eq_some_iff.mp hn
    exact Nat.add_le_add_right (ih m hm) 1

theorem quotedRest_le {quote : Char} {multiline : Bool} {c : Char} {rest : List Char} {n : Nat}
    (h : (quotedRest quote multiline rest).map (· + 1) = some n) : n ≤ (c :: rest).length := by
  obtain ⟨m, hm, rfl⟩ := Option.map_eq_some_iff.mp h
  exact Nat.add_le_add_right (fits_quotedRest quote multiline rest m hm) 1

theorem fits_quotedText : Fits quotedText := by
  intro text n hn
  unfold quotedText at hn
  split at hn
  · exact quotedRest_le hn
  · cases hn

theorem fits_exprString : Fits exprString := by
  intro text n hn
  unfold exprString at hn
  split at hn
  · exact quotedRest_le hn
  · exact quotedRest_le hn
  · cases hn

/-! ## Code and markup -/

theorem patternCodeLength_le (text : List Char) : patternCodeLength text ≤ text.length := by
  fun_induction patternCodeLength text <;> simp only [List.length_cons, List.length_nil] <;> omega

theorem fits_patternCode : Fits patternCode :=
  fits_of_nonzero patternCodeLength_le

theorem fits_wildcard : Fits wildcard := by
  intro text n hn
  unfold wildcard at hn
  split at hn
  · split at hn
    · cases hn
    · cases hn
      exact Nat.succ_le_succ (Nat.zero_le _)
  · cases hn

theorem fits_commentRest : Fits commentRest := by
  intro text
  fun_induction commentRest text with
  | case1 rest =>
    intro n hn
    cases hn
    exact Nat.le_add_left 3 rest.length
  | case2 c rest _ ih =>
    intro n hn
    obtain ⟨m, hm, rfl⟩ := Option.map_eq_some_iff.mp hn
    exact Nat.add_le_add_right (ih m hm) 1
  | case3 => nofun

theorem fits_comment : Fits comment := by
  intro text n hn
  unfold comment at hn
  split at hn
  · obtain ⟨m, hm, rfl⟩ := Option.map_eq_some_iff.mp hn
    exact Nat.add_le_add_right (fits_commentRest _ m hm) 4
  · cases hn

theorem fits_doctype : Fits doctype := by
  intro text n hn
  unfold doctype at hn
  obtain ⟨length, -, hn⟩ := Option.bind_eq_some_iff.mp hn
  obtain ⟨before, -, hn⟩ := Option.bind_eq_some_iff.mp hn
  obtain ⟨word, -, hn⟩ := Option.bind_eq_some_iff.mp hn
  dsimp only at hn
  split at hn
  · next rest hdrop =>
    have hlength := congrArg List.length hdrop
    simp only [List.length_drop, List.length_cons] at hlength
    cases hn
    omega
  · cases hn

theorem plainLength_le (text : List Char) : plainLength text ≤ text.length := by
  fun_induction plainLength text <;> simp only [List.length_cons, List.length_nil] <;> omega

theorem fits_plainText : Fits plainText :=
  fits_of_nonzero plainLength_le

/-! ## Numbers -/

theorem exponentLength_le (text : List Char) : exponentLength text ≤ text.length := by
  unfold exponentLength
  split
  · next e rest =>
    have hdigits : ∀ sign, (if run isDigit (rest.drop sign) == 0 then 0
        else 1 + sign + run isDigit (rest.drop sign)) ≤ (e :: rest).length := by
      intro sign
      have hrun := run_le isDigit (rest.drop sign)
      rw [List.length_drop] at hrun
      split
      · exact Nat.zero_le _
      · next hsome =>
        rw [beq_iff_eq] at hsome
        simp only [List.length_cons]
        omega
    split
    · exact hdigits _
    · exact Nat.zero_le _
  · exact Nat.zero_le _

/-- A fraction is a point with digits after it. -/
theorem fraction_le (text : List Char) :
    (match text with
      | '.' :: rest =>
        let n := run isDigit rest
        if n == 0 then 0 else n + 1
      | _ => 0) ≤ text.length := by
  split
  · next rest =>
    have hrun := run_le isDigit rest
    dsimp only
    split
    · exact Nat.zero_le _
    · exact Nat.succ_le_succ hrun
  · exact Nat.zero_le _

theorem fits_number : Fits number := by
  intro text n hn
  unfold number at hn
  extract_lets sign whole fraction length total at hn
  have hwhole : whole ≤ _ := run_le isDigit (text.drop sign)
  have hfraction : fraction ≤ _ := fraction_le (text.drop (sign + whole))
  have hexponent := exponentLength_le (text.drop length)
  simp only [List.length_drop] at hwhole hfraction hexponent
  split at hn
  · cases hn
  · next hsome =>
    rw [beq_iff_eq] at hsome
    split at hn
    · cases hn
    · have htotal : length + exponentLength (text.drop length) = n := Option.some.inj hn
      have hlength : length = sign + whole + fraction := rfl
      omega

/-! ## The end -/

theorem fits_end : Fits fun text => if text.isEmpty then some 0 else none := by
  intro text n hn
  dsimp only at hn
  split at hn
  · cases hn
    exact Nat.zero_le _
  · cases hn

/-! ## At least one character -/

/-- The scanner takes a character at least. -/
def NeverEmpty (scanner : List Char → Option Nat) : Prop :=
  ∀ text, ∀ n ∈ scanner text, 0 < n

theorem neverEmpty_literal {word : List Char} (h : word ≠ []) : NeverEmpty (literal word) := by
  intro text n hn
  unfold literal at hn
  split at hn
  · cases hn
    exact List.length_pos_iff.mpr h
  · cases hn

theorem neverEmpty_keyword {word : List Char} (h : word ≠ []) : NeverEmpty (keyword word) := by
  intro text n hn
  unfold keyword at hn
  split at hn
  · cases hn
    exact List.length_pos_iff.mpr h
  · cases hn

theorem neverEmpty_blockName : NeverEmpty blockName := by
  intro text n hn
  unfold blockName at hn
  split at hn
  · cases hn
  split at hn
  · dsimp only at hn
    split at hn
    · have hlength := Option.some.inj hn
      split at hlength <;> omega
    · have hlength := Option.some.inj hn
      omega
  · cases hn

theorem neverEmpty_quotedText : NeverEmpty quotedText := by
  intro text n hn
  unfold quotedText at hn
  split at hn
  · obtain ⟨m, -, rfl⟩ := Option.map_eq_some_iff.mp hn
    exact Nat.succ_pos m
  · cases hn

theorem neverEmpty_doctype : NeverEmpty doctype := by
  intro text n hn
  unfold doctype at hn
  obtain ⟨length, -, hn⟩ := Option.bind_eq_some_iff.mp hn
  obtain ⟨before, -, hn⟩ := Option.bind_eq_some_iff.mp hn
  obtain ⟨word, -, hn⟩ := Option.bind_eq_some_iff.mp hn
  dsimp only at hn
  split at hn
  · cases hn
    exact Nat.succ_pos _
  · cases hn

theorem neverEmpty_plainText : NeverEmpty plainText := by
  intro text n hn
  unfold plainText at hn
  dsimp only at hn
  split at hn
  · cases hn
  · next hsome =>
    cases hn
    rw [beq_iff_eq] at hsome
    exact Nat.pos_of_ne_zero hsome

theorem neverEmpty_number : NeverEmpty number := by
  intro text n hn
  unfold number at hn
  extract_lets sign whole fraction length total at hn
  split at hn
  · cases hn
  · next hsome =>
    rw [beq_iff_eq] at hsome
    split at hn
    · cases hn
    · have htotal : length + exponentLength (text.drop length) = n := Option.some.inj hn
      have hlength : length = sign + whole + fraction := rfl
      omega

end Stencil.Source
