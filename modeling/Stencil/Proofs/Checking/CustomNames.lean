import Stencil.Proofs.Checking.Valid

/-!
# Names of custom elements

A registry that accepts custom elements has an entry for every name in the form of one: small
letters, digits, points, underscores and hyphens, a letter first and a hyphen somewhere
(`IsCustom`). The name is matched to the end of its line, so one newline behind it goes unnoticed.
**Those two are all the names that are accepted without an entry of their own**
(`lookup_customName`), and such an element may have any attributes.
-/

namespace Stencil.Schema

/-- A small letter of ASCII. -/
def IsSmall (c : Char) : Prop :=
  'a' ≤ c ∧ c ≤ 'z'

instance (c : Char) : Decidable (IsSmall c) :=
  inferInstanceAs (Decidable (_ ∧ _))

/-- Whether a text has the form of a custom element's name. -/
structure IsCustom (text : List Char) : Prop where
  chars : ∀ c ∈ text, IsSmall c ∨ ('0' ≤ c ∧ c ≤ '9') ∨ c ∈ ['.', '_', '-']
  letter : ∃ c, text.head? = some c ∧ IsSmall c
  hyphen : '-' ∈ text

/-! ## The form of a name -/

theorem isCustomNameChar_iff {c : Char} :
    isCustomNameChar c = true ↔ IsSmall c ∨ ('0' ≤ c ∧ c ≤ '9') ∨ c ∈ ['.', '_', '-'] := by
  simp [isCustomNameChar, IsSmall, or_assoc]

theorem isCustomForm_iff {text : List Char} : isCustomForm text = true ↔ IsCustom text := by
  cases text with
  | nil => exact iff_of_false Bool.false_ne_true fun h => absurd h.hyphen List.not_mem_nil
  | cons c rest =>
    have hform : isCustomForm (c :: rest) = true ↔
        IsSmall c ∧ (∀ d ∈ rest, isCustomNameChar d = true) ∧ '-' ∈ rest := by
      simp [isCustomForm, IsSmall, and_assoc]
    rw [hform]
    constructor
    · rintro ⟨hc, hrest, hhyphen⟩
      refine ⟨List.forall_mem_cons.mpr ⟨.inl hc, fun d hd => isCustomNameChar_iff.mp (hrest d hd)⟩,
        ⟨c, rfl, hc⟩, List.mem_cons_of_mem c hhyphen⟩
    · rintro ⟨hchars, ⟨d, hd, hc⟩, hhyphen⟩
      obtain rfl : c = d := Option.some.inj hd
      refine ⟨hc, fun d hd => isCustomNameChar_iff.mpr (hchars d (List.mem_cons_of_mem c hd)), ?_⟩
      rcases List.mem_cons.mp hhyphen with rfl | hrest
      · exact absurd hc (by decide)
      · exact hrest

instance (text : List Char) : Decidable (IsCustom text) :=
  decidable_of_iff _ isCustomForm_iff

/-- The form as a pattern: a letter, characters without a hyphen, the first hyphen, and any
characters. -/
theorem isCustom_iff_pattern {text : List Char} : IsCustom text ↔
    ∃ c stem tail, text = c :: (stem ++ '-' :: tail) ∧ IsSmall c ∧
      (∀ d ∈ stem, isCustomNameChar d = true ∧ d ≠ '-') ∧
      ∀ d ∈ tail, isCustomNameChar d = true := by
  constructor
  · rintro ⟨hchars, ⟨c, hc, hsmall⟩, hhyphen⟩
    obtain ⟨rest, rfl⟩ := List.head?_eq_some_iff.mp hc
    rcases List.mem_cons.mp hhyphen with rfl | hrest
    · exact absurd hsmall (by decide)
    -- the first hyphen of several, so that the stem has none
    obtain ⟨stem, tail, rfl, hstem⟩ := List.eq_append_cons_of_mem hrest
    have hall (d : Char) (hd : d ∈ stem ++ '-' :: tail) : isCustomNameChar d = true :=
      isCustomNameChar_iff.mpr (hchars d (List.mem_cons_of_mem c hd))
    refine ⟨c, stem, tail, rfl, hsmall, fun d hd => ⟨hall d (by simp [hd]), ?_⟩,
      fun d hd => hall d (by simp [hd])⟩
    rintro rfl
    exact hstem hd
  · rintro ⟨c, stem, tail, rfl, hsmall, hstem, htail⟩
    refine ⟨List.forall_mem_cons.mpr ⟨.inl hsmall, fun d hd => isCustomNameChar_iff.mp ?_⟩,
      ⟨c, rfl, hsmall⟩, by simp⟩
    rcases List.mem_append.mp hd with hd | hd
    · exact (hstem d hd).1
    · rcases List.mem_cons.mp hd with rfl | hd
      · decide
      · exact htail d hd

theorem IsCustom.getLast_ne {text : List Char} (h : IsCustom text) :
    text.getLast? ≠ some '\n' := by
  intro hlast
  have hline := isCustomNameChar_iff.mpr (h.chars '\n' (List.mem_of_getLast? hlast))
  cases hline

/-- A newline behind a name is not seen. -/
theorem isCustomName_iff {name : String} : isCustomName name = true ↔
    ∃ stem, IsCustom stem ∧ (name.toList = stem ∨ name.toList = stem ++ ['\n']) := by
  rw [isCustomName, isCustomForm_iff]
  constructor
  · intro h
    refine ⟨_, h, ?_⟩
    unfold dropFinalNewline
    split
    · next hlast => exact .inr (List.dropLast_append_getLast? '\n' hlast).symm
    · exact .inl rfl
  · rintro ⟨stem, hstem, hname | hname⟩ <;> rw [hname, dropFinalNewline]
    · rwa [if_neg hstem.getLast_ne]
    · rwa [if_pos List.getLast?_concat, List.dropLast_concat]

/-! ## Looking up -/

namespace Registry

variable (r : Registry) {name : String}

theorem lookup_of_unstored (h : r.stored? name = none) :
    r.lookup name = if r.customElements && isCustomName name then
      some (Entry.make name { custom := true }) else none := by
  rw [lookup, h]

/-- **A registry accepts custom elements by the form of their names.** Take a name without an entry
of its own. It is found if and only if custom elements are accepted and the name has their form, a
newline behind it aside. The entry is not void and has every attribute. So, whatever its attributes
are called, an element of this name is without a fault if and only if the name is found and no
expression is a string with quotes in it. -/
theorem lookup_customName (h : r.stored? name = none) :
    ((r.lookup name).isSome = true ↔ r.customElements = true ∧
      ∃ stem, IsCustom stem ∧ (name.toList = stem ∨ name.toList = stem ++ ['\n'])) ∧
    (∀ entry, r.lookup name = some entry →
      entry.isVoid = false ∧ ∀ attr, r.allows entry attr = true) ∧
    ∀ attributes children void place,
      r.nodeViolations (.element name attributes children void place) = [] ↔
        (r.lookup name).isSome = true ∧
          ∀ a ∈ attributes, ∀ e, a.value.Shows e → isAmbiguous e = false := by
  have hlookup := r.lookup_of_unstored h
  have hentry (entry : Entry) (hfound : r.lookup name = some entry) :
      entry.isVoid = false ∧ ∀ attr, r.allows entry attr = true := by
    rw [hlookup] at hfound
    split at hfound
    · cases hfound
      exact ⟨rfl, fun attr => rfl⟩
    · cases hfound
  refine ⟨?_, hentry, fun attributes children void place => ?_⟩
  · rw [← isCustomName_iff, hlookup, ← Bool.and_eq_true]
    split
    · next haccepted => simp [haccepted]
    · next hrefused => simp [hrefused]
  · rw [nodeViolations_eq_nil, Node.IsValid]
    constructor
    · rintro ⟨entry, hfound, -, hattributes⟩
      exact ⟨by rw [hfound]; rfl, fun a ha => (hattributes a ha).2⟩
    · rintro ⟨hsome, hattributes⟩
      obtain ⟨entry, hfound⟩ := Option.isSome_iff_exists.mp hsome
      obtain ⟨hvoid, hallows⟩ := hentry entry hfound
      refine ⟨entry, hfound, fun h => ?_, fun a ha => ⟨hallows a.name, hattributes a ha⟩⟩
      rw [hvoid] at h
      cases h

/-- A registry with the elements of HTML that accepts custom elements. -/
def accepting : Registry :=
  { builtin with customElements := true }

/-- A custom element with an attribute that no element of HTML has. -/
theorem lookup_customName_card :
    accepting.stored? "my-card" = none ∧ (accepting.lookup "my-card").isSome = true ∧
    accepting.nodeViolations
      (.element "my-card" [⟨"suit", .literal "hearts", none⟩] [] false none) = [] := by
  have hstored : accepting.stored? "my-card" = none := by decide +kernel
  have hcustom : IsCustom "my-card".toList := by decide
  obtain ⟨hfound, -, hvalid⟩ := lookup_customName accepting hstored
  have hsome := hfound.mpr ⟨rfl, _, hcustom, .inl rfl⟩
  refine ⟨hstored, hsome, (hvalid _ _ _ _).mpr ⟨hsome, fun a ha e he => ?_⟩⟩
  obtain rfl := List.mem_singleton.mp ha
  cases he

/-- A name with a newline behind it is found, but it has not the form of one. -/
theorem lookup_customName_newline :
    accepting.stored? "my-card\n" = none ∧ (accepting.lookup "my-card\n").isSome = true ∧
    ¬ IsCustom "my-card\n".toList := by
  refine ⟨by decide +kernel, by decide +kernel, fun h => h.getLast_ne ?_⟩
  decide

end Registry

end Stencil.Schema
