import Mathlib.Data.List.TakeWhile
import Stencil.Dialect
import Stencil.Proofs.Agreement.Texts
import Stencil.Proofs.Shape.Formed

/-!
# The names of a loop

The names that a loop binds are not kept by the grammar: they are found in the text of its target
once more, by dropping the parentheses, splitting at commas and trimming. This gives the names that
the grammar has matched if nothing but white space stands around them (`loopNames_eq_iff`). A
comment, which the dialect of blocks lets stand inside the parentheses, ends up in a name.
-/

namespace Stencil.Source

open Text

/-! ## Texts -/

/-- White space, maybe none. -/
def IsGap (gap : List Char) : Prop :=
  ∀ c ∈ gap, isSpace c

instance (gap : List Char) : Decidable (IsGap gap) :=
  List.decidableBAll (fun c => isSpace c = true) gap

/-- A letter of ASCII or an underscore with word characters behind it. -/
def IsVariable (name : List Char) : Prop :=
  ∃ c more, name = c :: more ∧ isNameHead c ∧ ∀ d ∈ more, isWord d

/-- Names with commas between them, and white space around the commas. -/
inductive NameList : List (List Char) → List Char → Prop
  | last {name : List Char} (h : IsVariable name) : NameList [name] name
  | more {name before after text : List Char} {names : List (List Char)} (h : IsVariable name)
      (hbefore : IsGap before) (hafter : IsGap after) (hnames : NameList names text) :
      NameList (name :: names) (name ++ before ++ ',' :: (after ++ text))

/-- What a dialect lets stand between the words of a control block: white space, and in the dialect
of blocks line comments. -/
inductive Skipped (d : Dialect) : List Char → Prop
  | nil : Skipped d []
  | space {c : Char} {gap : List Char} (hc : isSpace c) (h : Skipped d gap) : Skipped d (c :: gap)
  | comment {line gap : List Char} (hd : d = .maud) (hline : '\n' ∉ line) (h : Skipped d gap) :
      Skipped d ('/' :: '/' :: (line ++ '\n' :: gap))

/-- The target of a loop: names, maybe in parentheses. Of what stands between the parentheses and
the names, the margins are told apart. -/
inductive Target (d : Dialect) (names : List (List Char)) : List Char → List Char → Prop
  | bare {text : List Char} (h : NameList names text) : Target d names [] text
  | enclosed {before text after : List Char} (hbefore : Skipped d before)
      (h : NameList names text) (hafter : Skipped d after) :
      Target d names (before ++ after) ('(' :: (before ++ text ++ after) ++ [')'])

theorem IsGap.nil : IsGap [] :=
  nofun

theorem IsGap.isBlank {gap : List Char} (h : IsGap gap) : ∀ c ∈ gap, isBlank c = true :=
  fun c hc => isBlank_of_isSpace (h c hc)

theorem IsVariable.isWord {name : List Char} (h : IsVariable name) : ∀ c ∈ name, isWord c := by
  obtain ⟨c, more, rfl, hc, hmore⟩ := h
  exact List.forall_mem_cons.mpr ⟨isWord_of_nameHead hc, hmore⟩

theorem NameList.isVariable {names : List (List Char)} {text : List Char}
    (h : NameList names text) : ∀ name ∈ names, IsVariable name := by
  induction h with
  | last h => exact List.forall_mem_singleton.mpr h
  | more h _ _ _ ih => exact List.forall_mem_cons.mpr ⟨h, ih⟩

/-! ## Word characters -/

set_option maxRecDepth 20000 in
theorem isWord_blankCodes : ∀ n ∈ blankCodes, isWord (Char.ofNat n) = false := by
  decide

theorem notBlank_of_word {c : Char} (h : isWord c = true) : isBlank c = false := by
  rw [← Bool.not_eq_true]
  intro hblank
  have hword := isWord_blankCodes c.toNat (mem_blankCodes hblank)
  rw [Char.ofNat_toNat, h] at hword
  cases hword

/-- A text that begins and ends with a word character. -/
def IsWordy (s : List Char) : Prop :=
  ∃ c d u v, s = c :: u ∧ s = v ++ [d] ∧ isWord c ∧ isWord d

theorem IsWordy.stops {s : List Char} (h : IsWordy s) {p : Char → Bool}
    (hp : ∀ c, isWord c → p c = false) : Stops p s ∧ Stops p s.reverse := by
  obtain ⟨c, d, u, v, hu, hv, hc, hd⟩ := h
  constructor
  · rw [hu]
    exact hp c hc
  · rw [hv, List.reverse_append]
    exact hp d hd

theorem IsVariable.isWordy {name : List Char} (h : IsVariable name) : IsWordy name := by
  have hword := h.isWord
  obtain ⟨c, more, rfl, -, -⟩ := h
  have hne := List.cons_ne_nil c more
  exact ⟨c, _, more, _, rfl, (List.dropLast_append_getLast hne).symm,
    hword c (List.mem_cons_self ..), hword _ (List.getLast_mem hne)⟩

theorem NameList.isWordy {names : List (List Char)} {text : List Char} (h : NameList names text) :
    IsWordy text := by
  induction h with
  | last h => exact h.isWordy
  | @more name before after text names h _ _ _ ih =>
    obtain ⟨c, -, u, -, rfl, -, hc, -⟩ := h.isWordy
    obtain ⟨-, d, -, v, -, rfl, -, hd⟩ := ih
    refine ⟨c, d, _, c :: u ++ before ++ ',' :: (after ++ v), rfl, ?_, hc, hd⟩
    simp only [List.append_assoc, List.cons_append]

/-! ## Trimming -/

theorem mem_dropWhile_of_neg {p : Char → Bool} {c : Char} {s : List Char} (hc : p c = false)
    (h : c ∈ s) : c ∈ s.dropWhile p := by
  rw [← List.takeWhile_append_dropWhile (p := p) (l := s)] at h
  rcases List.mem_append.mp h with h | h
  · rw [List.mem_takeWhile_imp h] at hc
    cases hc
  · exact h

/-- Trimming takes away blanks only. -/
theorem mem_trim {c : Char} {s : List Char} (hc : isBlank c = false) (h : c ∈ s) : c ∈ trim s := by
  rw [trim, trimEnd, List.mem_reverse]
  exact mem_dropWhile_of_neg hc (List.mem_reverse.mpr (mem_dropWhile_of_neg hc h))

/-- Trimming takes away the white space around a text. -/
theorem trim_gaps {before s after : List Char} (hbefore : IsGap before) (hs : IsWordy s)
    (hafter : IsGap after) : trim (before ++ s ++ after) = s := by
  obtain ⟨hhead, hlast⟩ := hs.stops fun c => notBlank_of_word
  have hstart : trimStart (before ++ s ++ after) = s ++ after := by
    rw [trimStart, List.append_assoc, List.dropWhile_append_of_pos hbefore.isBlank]
    obtain ⟨c, -, u, -, rfl, -, hc, -⟩ := hs
    exact List.dropWhile_cons_of_neg (by rw [notBlank_of_word hc]; exact Bool.false_ne_true)
  have hreverse : ∀ c ∈ after.reverse, isBlank c = true :=
    fun c hc => hafter.isBlank c (List.mem_reverse.mp hc)
  rw [trim, hstart, trimEnd, List.reverse_append, List.dropWhile_append_of_pos hreverse,
    dropWhile_of_stops hlast, List.reverse_reverse]

/-! ## The names -/

theorem comma_not_mem_of_word {s : List Char} (h : ∀ c ∈ s, isWord c) : ',' ∉ s :=
  fun hmem => absurd (h ',' hmem) (by decide)

theorem comma_not_mem_of_gap {s : List Char} (h : IsGap s) : ',' ∉ s :=
  fun hmem => absurd (h ',' hmem) (by decide)

/-- Splitting at the commas and trimming finds the names. -/
theorem trim_splitOnChar {names : List (List Char)} {before text after : List Char}
    (hbefore : IsGap before) (h : NameList names text) (hafter : IsGap after) :
    (splitOnChar ',' (before ++ text ++ after)).map trim = names := by
  induction h generalizing before with
  | @last name h =>
    have hcomma : ',' ∉ before ++ name ++ after := by
      rw [List.mem_append, List.mem_append, not_or, not_or]
      exact ⟨⟨comma_not_mem_of_gap hbefore, comma_not_mem_of_word h.isWord⟩,
        comma_not_mem_of_gap hafter⟩
    rw [splitOnChar_single hcomma, List.map_singleton, trim_gaps hbefore h.isWordy hafter]
  | @more name gap gap' rest names h hgap hgap' _ ih =>
    have hcomma : ',' ∉ before ++ name ++ gap := by
      rw [List.mem_append, List.mem_append, not_or, not_or]
      exact ⟨⟨comma_not_mem_of_gap hbefore, comma_not_mem_of_word h.isWord⟩,
        comma_not_mem_of_gap hgap⟩
    have hsplit : before ++ (name ++ gap ++ ',' :: (gap' ++ rest)) ++ after =
        (before ++ name ++ gap) ++ ',' :: (gap' ++ rest ++ after) := by
      simp only [List.append_assoc, List.cons_append]
    rw [hsplit, splitOnChar_append hcomma, List.map_cons, trim_gaps hbefore h.isWordy hgap,
      ih hgap']

theorem Skipped.isGap_or {d : Dialect} {gap : List Char} (h : Skipped d gap) :
    IsGap gap ∨ '/' ∈ gap := by
  induction h with
  | nil => exact .inl .nil
  | space hc _ ih =>
    exact ih.imp (fun hgap => List.forall_mem_cons.mpr ⟨hc, hgap⟩) (List.mem_cons_of_mem _)
  | comment => exact .inr (List.mem_cons_self ..)

theorem Skipped.begins {d : Dialect} {gap : List Char} (h : Skipped d gap) :
    gap = [] ∨ ∃ c rest, gap = c :: rest ∧ (isSpace c ∨ c = '/') := by
  cases h with
  | nil => exact .inl rfl
  | space hc => exact .inr ⟨_, _, rfl, .inl hc⟩
  | comment => exact .inr ⟨_, _, rfl, .inr rfl⟩

/-- A comment takes the newline along that ends it. -/
theorem Skipped.ends {d : Dialect} {gap : List Char} (h : Skipped d gap) :
    gap = [] ∨ ∃ front c, gap = front ++ [c] ∧ isSpace c := by
  induction h with
  | nil => exact .inl rfl
  | @space c gap hc _ ih =>
    rcases ih with rfl | ⟨front, e, rfl, he⟩
    · exact .inr ⟨[], c, rfl, hc⟩
    · exact .inr ⟨c :: front, e, rfl, he⟩
  | @comment line gap _ _ _ ih =>
    rcases ih with rfl | ⟨front, e, rfl, he⟩
    · exact .inr ⟨'/' :: '/' :: line, '\n', rfl, by decide⟩
    · refine .inr ⟨'/' :: '/' :: (line ++ '\n' :: front), e, ?_, he⟩
      simp only [List.cons_append, List.append_assoc]

/-- Names with something skipped around them begin and end with neither parenthesis. -/
theorem stops_enclosed {d : Dialect} {before text after : List Char} {p : Char → Bool}
    (hspace : ∀ c, isSpace c → p c = false) (hslash : p '/' = false)
    (hword : ∀ c, isWord c → p c = false) (hbefore : Skipped d before) (htext : IsWordy text)
    (hafter : Skipped d after) :
    Stops p (before ++ text ++ after) ∧ Stops p (before ++ text ++ after).reverse := by
  obtain ⟨hhead, hlast⟩ := htext.stops hword
  obtain ⟨c, e, u, v, hu, hv, hc, he⟩ := htext
  constructor
  · rcases hbefore.begins with rfl | ⟨b, rest, rfl, hb⟩
    · rw [List.nil_append, hu]
      exact hword c hc
    · rcases hb with hb | rfl
      · exact hspace b hb
      · exact hslash
  · rcases hafter.ends with rfl | ⟨front, a, rfl, ha⟩
    · rw [List.append_nil, List.reverse_append, hv, List.reverse_append]
      exact hword e he
    · rw [← List.append_assoc, List.reverse_append]
      exact hspace a ha

theorem ne_mark {p : Char → Bool} {mark : Char} (h : p mark = false) :
    ∀ c, p c = true → (c == mark) = false := by
  intro c hc
  rw [beq_eq_false_iff_ne]
  rintro rfl
  rw [h] at hc
  cases hc

theorem loopNames_of_stops {text : List Char} (hblank : Stops isBlank text)
    (hblank' : Stops isBlank text.reverse) (hopen : Stops (· == '(') text)
    (hclose : Stops (· == ')') text.reverse) :
    loopNames text = (splitOnChar ',' text).map trim := by
  rw [loopNames, trim_of_stops hblank hblank', dropWhile_of_stops hopen, dropWhile_of_stops hclose,
    List.reverse_reverse]

theorem loopNames_enclosed {inner : List Char} (hne : inner ≠ []) (hopen : Stops (· == '(') inner)
    (hclose : Stops (· == ')') inner.reverse) :
    loopNames ('(' :: inner ++ [')']) = (splitOnChar ',' inner).map trim := by
  have htrim : trim ('(' :: inner ++ [')']) = '(' :: inner ++ [')'] := by
    refine trim_of_stops rfl ?_
    rw [List.reverse_append]
    rfl
  have hopen' : Stops (· == '(') (inner ++ [')']) := by
    obtain ⟨c, rest, rfl⟩ := List.exists_cons_of_ne_nil hne
    exact hopen
  have hdrop : ('(' :: inner ++ [')']).dropWhile (· == '(') = inner ++ [')'] := by
    rw [List.cons_append, List.dropWhile_cons_of_pos rfl, dropWhile_of_stops hopen']
  rw [loopNames, htrim, hdrop, List.reverse_append, List.reverse_singleton, List.singleton_append,
    List.dropWhile_cons_of_pos rfl, dropWhile_of_stops hclose, List.reverse_reverse]

/-- **The names of a loop are those of its target, unless a comment stands among them.** Then one of
the names that are found has the slashes of the comment in it, so it is no name. -/
theorem Target.loopNames_or {d : Dialect} {names : List (List Char)} {margins text : List Char}
    (h : Target d names margins text) :
    IsGap margins ∧ loopNames text = names ∨
      ¬ IsGap margins ∧ ∃ name ∈ loopNames text, '/' ∈ name := by
  cases h with
  | bare h =>
    have hwordy := h.isWordy
    obtain ⟨hblank, hblank'⟩ := hwordy.stops fun c => notBlank_of_word
    refine .inl ⟨.nil, ?_⟩
    rw [loopNames_of_stops hblank hblank' (hwordy.stops (ne_mark rfl)).1 (hwordy.stops (ne_mark rfl)).2]
    have hnames := trim_splitOnChar .nil h .nil
    rwa [List.nil_append, List.append_nil] at hnames
  | @enclosed before list after hbefore h hafter =>
    have hwordy := h.isWordy
    have hne : before ++ list ++ after ≠ [] := by
      obtain ⟨c, -, u, -, rfl, -⟩ := hwordy
      simp
    have hinner := loopNames_enclosed hne
      (stops_enclosed (ne_mark rfl) rfl (ne_mark rfl) hbefore hwordy hafter).1
      (stops_enclosed (ne_mark rfl) rfl (ne_mark rfl) hbefore hwordy hafter).2
    rw [hinner]
    -- the margins go to the first and the last name, where only white space is trimmed
    by_cases hgap : IsGap (before ++ after)
    · obtain ⟨hgap₁, hgap₂⟩ := List.forall_mem_append.mp hgap
      exact .inl ⟨hgap, trim_splitOnChar hgap₁ h hgap₂⟩
    · have hslash : '/' ∈ before ++ list ++ after := by
        rcases hbefore.isGap_or with hgap₁ | hmem
        · rcases hafter.isGap_or with hgap₂ | hmem
          · exact absurd (List.forall_mem_append.mpr ⟨hgap₁, hgap₂⟩) hgap
          · exact List.mem_append_right _ hmem
        · exact List.mem_append_left _ (List.mem_append_left _ hmem)
      -- no comma is lost in the split but commas, so the slash is in one of the parts
      have hsplit : '/' = ',' ∨ ∃ part ∈ splitOnChar ',' (before ++ list ++ after), '/' ∈ part :=
        mem_splitOnChar hslash
      rcases hsplit with hcomma | ⟨part, hpart, hmem⟩
      · exact absurd hcomma (by decide)
      · exact .inr ⟨hgap, trim part, List.mem_map_of_mem hpart, mem_trim (by decide) hmem⟩

theorem Target.isVariable {d : Dialect} {names : List (List Char)} {margins text : List Char}
    (h : Target d names margins text) : ∀ name ∈ names, IsVariable name := by
  cases h with
  | bare h => exact h.isVariable
  | enclosed _ h => exact h.isVariable

/-- In tags there are no comments among the names. -/
theorem Target.isGap_of_rsx {names : List (List Char)} {margins text : List Char}
    (h : Target .rsx names margins text) : IsGap margins := by
  have hskipped : ∀ {gap}, Skipped .rsx gap → IsGap gap := by
    intro gap hgap
    induction hgap with
    | nil => exact .nil
    | space hc _ ih => exact List.forall_mem_cons.mpr ⟨hc, ih⟩
    | comment hd => cases hd
  cases h with
  | bare => exact .nil
  | enclosed hbefore _ hafter =>
    exact List.forall_mem_append.mpr ⟨hskipped hbefore, hskipped hafter⟩

end Stencil.Source
