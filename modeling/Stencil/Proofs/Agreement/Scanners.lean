import Stencil.Proofs.Agreement.Spell
import Stencil.Proofs.Grammar.NameScanners

/-!
# Scanners on spelled trees

What the scanners say of the names and texts that trees are spelled with, given what follows them.
-/

namespace Stencil.Source

open Text

/-! ## Characters -/

/-- What holds of all characters of ASCII holds of every single one. -/
theorem of_ascii {p : Char → Prop} (h : ∀ n < 128, p (Char.ofNat n)) {c : Char}
    (hc : c.toNat < 128) : p c := by
  have hp := h c.toNat hc
  rwa [Char.ofNat_toNat] at hp

/-- A character of an identifier. -/
def isIdentifierChar (c : Char) : Bool :=
  isNameHead c || Term.isAsciiDigit c

/-- A character of a name. -/
def isNameChar (c : Char) : Bool :=
  isIdentifierChar c || c == '-'

theorem ascii_of_letter {c : Char} (h : isAsciiLetter c = true) : c.toNat < 128 := by
  simp only [isAsciiLetter, Bool.or_eq_true, Bool.and_eq_true, decide_eq_true_eq] at h
  rcases h with ⟨-, h⟩ | ⟨-, h⟩
  · exact Nat.lt_of_le_of_lt h (by decide)
  · exact Nat.lt_of_le_of_lt h (by decide)

theorem ascii_of_nameChar {c : Char} (h : isNameChar c = true) : c.toNat < 128 := by
  simp only [isNameChar, isIdentifierChar, isNameHead, Term.isAsciiDigit, Bool.or_eq_true,
    Bool.and_eq_true, decide_eq_true_eq, beq_iff_eq] at h
  rcases h with ((h | rfl) | ⟨-, h⟩) | rfl
  · exact ascii_of_letter h
  · decide
  · exact Nat.lt_of_le_of_lt h (by decide)
  · decide

theorem nameChar_of_identifierChar {c : Char} (h : isIdentifierChar c = true) :
    isNameChar c = true := by
  simp [isNameChar, h]

/-- A property of the characters of names has to be looked at for those of ASCII only. -/
theorem of_nameChar {p : Char → Bool} (h : ∀ n < 128, isNameChar (Char.ofNat n) → p (Char.ofNat n))
    {c : Char} (hc : isNameChar c) : p c :=
  of_ascii (p := fun c => isNameChar c → p c) h (ascii_of_nameChar hc) hc

theorem of_identifierChar {p : Char → Bool}
    (h : ∀ n < 128, isIdentifierChar (Char.ofNat n) → p (Char.ofNat n)) {c : Char}
    (hc : isIdentifierChar c) : p c :=
  of_ascii (p := fun c => isIdentifierChar c → p c) h
    (ascii_of_nameChar (nameChar_of_identifierChar hc)) hc

theorem tagChar_of_nameChar {c : Char} : isNameChar c → isTagChar c :=
  of_nameChar (by decide)

theorem attributeChar_of_nameChar {c : Char} : isNameChar c → isAttributeChar c :=
  of_nameChar (by decide)

theorem word_of_identifierChar {c : Char} : isIdentifierChar c → isWord c :=
  of_identifierChar (by decide)

theorem code_of_identifierChar {c : Char} : isIdentifierChar c → isCode c :=
  of_identifierChar (by decide)

theorem notBlank_of_identifierChar {c : Char} : isIdentifierChar c → !isBlank c :=
  of_identifierChar (p := fun c => !isBlank c) (by decide)

/-! ## Shapes -/

theorem of_isShaped {head rest : Char → Bool} {s : List Char} (h : isShaped head rest s) :
    ∃ c more, s = c :: more ∧ head c ∧ ∀ d ∈ more, rest d := by
  cases s with
  | nil => cases h
  | cons c more =>
    simp only [isShaped, Bool.and_eq_true, List.all_eq_true] at h
    exact ⟨c, more, rfl, h.1, h.2⟩

theorem of_isIdentifier {s : List Char} (h : isIdentifier s) :
    ∃ c more, s = c :: more ∧ isNameHead c ∧ ∀ d ∈ more, isIdentifierChar d :=
  of_isShaped h

theorem identifierChars {s : List Char} (h : isIdentifier s) : ∀ c ∈ s, isIdentifierChar c := by
  obtain ⟨c, more, rfl, hc, hmore⟩ := of_isIdentifier h
  exact List.forall_mem_cons.mpr ⟨by simp [isIdentifierChar, hc], hmore⟩

theorem isIdentifier_ne_nil {s : List Char} (h : isIdentifier s) : s ≠ [] := by
  obtain ⟨c, more, rfl, -, -⟩ := of_isIdentifier h
  exact List.cons_ne_nil _ _

theorem nameChar_of_head {c : Char} (h : isNameHead c) : isNameChar c := by
  simp [isNameChar, isIdentifierChar, h]

theorem nameChar_of_letter {c : Char} (h : isAsciiLetter c) : isNameChar c :=
  nameChar_of_head (by simp [isNameHead, h])

/-- A name of an element, an attribute or a component. -/
def IsWordName (s : List Char) : Prop :=
  ∃ c more, s = c :: more ∧ isAsciiLetter c ∧ ∀ d ∈ more, isNameChar d

theorem isWordName_plain {s : List Char} (h : isPlainName s) : IsWordName s := by
  obtain ⟨c, more, rfl, hc, hmore⟩ := of_isShaped h
  refine ⟨c, more, rfl, ?_, fun d hd => ?_⟩
  · simp only [isSmall] at hc
    simp [isAsciiLetter, hc]
  · have hd := hmore d hd
    simp only [isSmall, Bool.or_eq_true, Bool.and_eq_true, decide_eq_true_eq, beq_iff_eq] at hd
    rcases hd with (hd | hd) | rfl
    · simp [isNameChar, isIdentifierChar, isNameHead, isAsciiLetter, hd]
    · simp [isNameChar, isIdentifierChar, hd]
    · decide

theorem isWordName_capital {s : List Char} (h : isCapitalName s) : IsWordName s := by
  obtain ⟨c, more, rfl, hc, hmore⟩ := of_isShaped h
  refine ⟨c, more, rfl, ?_, fun d hd => ?_⟩
  · simp only [isCapital] at hc
    simp [isAsciiLetter, hc]
  · have hd := hmore d hd
    rw [Bool.or_eq_true] at hd
    rcases hd with hd | hd <;> simp [isNameChar, isIdentifierChar, isNameHead, hd]

/-! ## Runs and fixed texts -/

/-- No character with the property begins the text. -/
def Stops (p : Char → Bool) (t : List Char) : Prop :=
  t.head?.any p = false

theorem run_append {p : Char → Bool} {s t : List Char} (hs : ∀ c ∈ s, p c) (ht : Stops p t) :
    run p (s ++ t) = s.length := by
  unfold run
  rw [List.takeWhile_append_of_pos hs]
  cases t with
  | nil => simp
  | cons c t =>
    have hc : p c = false := by simpa [Stops] using ht
    simp [hc]

theorem literal_append (word t : List Char) : literal word (word ++ t) = some word.length := by
  simp [literal]

theorem literal_ne {c d : Char} (h : c ≠ d) (word t : List Char) :
    literal (c :: word) (d :: t) = none := by
  simp [literal, h]

theorem keyword_append {word t : List Char} (ht : Stops isWord t) :
    keyword word (word ++ t) = some word.length := by
  have ht : t.head?.any isWord = false := ht
  simp [keyword, ht]

theorem keyword_none {word t : List Char} (h : ¬ word <+: t) : keyword word t = none := by
  have h : word.isPrefixOf t = false := by
    rwa [← Bool.not_eq_true, List.isPrefixOf_iff_prefix]
  simp [keyword, h]

/-! ## White space -/

/-- The text begins with neither white space nor a slash. -/
abbrev Firm (t : List Char) : Prop :=
  Stops (fun c => isSpace c || c == '/') t

theorem Firm.stops {t : List Char} (h : Firm t) : Stops isSpace t := by
  cases t with
  | nil => rfl
  | cons c t =>
    simp only [Stops, List.head?_cons, Option.any_some, Bool.or_eq_false_iff] at h ⊢
    exact h.1

theorem firm_of_nameChar {c : Char} (h : isNameChar c) (t : List Char) : Firm (c :: t) := by
  have hc := of_nameChar (p := fun c => !(isSpace c || c == '/')) (by decide) h
  simpa [Stops] using hc

theorem spaces_append {s t : List Char} (hs : ∀ c ∈ s, isSpace c) (ht : Firm t) :
    spaces (s ++ t) = s.length :=
  run_append hs ht.stops

theorem spacesAndComments_firm {t : List Char} (ht : Firm t) : spacesAndComments false t = 0 := by
  unfold spacesAndComments
  split
  · rfl
  · cases ht
  · next c rest _ =>
    simp only [Stops, List.head?_cons, Option.any_some, Bool.or_eq_false_iff] at ht
    simp [ht.1]

theorem spacesAndComments_space {t : List Char} (ht : Firm t) :
    spacesAndComments false (' ' :: t) = 1 := by
  rw [spacesAndComments]
  · simp [spacesAndComments_firm ht, show isSpace ' ' = true by decide]
  · intro rest h
    cases h

/-! ## Names -/

theorem tagNameRest_append {s t : List Char} (hs : ∀ c ∈ s, isTagChar c)
    (ht : Stops (fun c => isTagChar c || c == '.' || c == ':') t) :
    tagNameRest (s ++ t) = s.length := by
  induction s with
  | nil =>
    cases t with
    | nil => rfl
    | cons c t =>
      simp only [Stops, List.head?_cons, Option.any_some, Bool.or_eq_false_iff] at ht
      rw [List.nil_append, tagNameRest.eq_def]
      simp [ht]
  | cons c s ih =>
    obtain ⟨hc, hs⟩ := List.forall_mem_cons.mp hs
    rw [List.cons_append, tagNameRest.eq_def]
    simp [hc, ih hs, Nat.add_comm]

theorem tagName_append {s t : List Char} (hs : IsWordName s)
    (ht : Stops (fun c => isTagChar c || c == '.' || c == ':') t) :
    tagName (s ++ t) = some s.length := by
  obtain ⟨c, more, rfl, hc, hmore⟩ := hs
  have hrest := tagNameRest_append (fun d hd => tagChar_of_nameChar (hmore d hd)) ht
  simp [tagName, hc, hrest, Nat.add_comm]

theorem blockName_append {s t : List Char} (hs : IsWordName s) :
    blockName (s ++ ' ' :: t) = some s.length := by
  obtain ⟨c, more, rfl, hc, hmore⟩ := hs
  have hrun : run isTagChar (more ++ ' ' :: t) = more.length :=
    run_append (fun d hd => tagChar_of_nameChar (hmore d hd)) (by rfl)
  simp [blockName, hc, hrun, Nat.add_comm]

theorem attributeName_append {s t : List Char} (hs : IsWordName s) (ht : Stops isAttributeChar t) :
    attributeName (s ++ t) = some s.length := by
  obtain ⟨c, more, rfl, hc, hmore⟩ := hs
  have hrun : run isAttributeChar (more ++ t) = more.length :=
    run_append (fun d hd => attributeChar_of_nameChar (hmore d hd)) ht
  have hmark : attributeMark (c :: (more ++ t)) = 0 := by
    unfold attributeMark
    split
    · next h =>
      cases h
      exact absurd hc (by decide)
    · next h =>
      cases h
      exact absurd hc (by decide)
    · rfl
  simp [attributeName, hmark, isNameHead, hc, hrun, Nat.add_comm]

end Stencil.Source
