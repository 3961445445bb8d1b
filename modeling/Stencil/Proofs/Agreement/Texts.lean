import Stencil.Proofs.Agreement.Scanners
import Stencil.Source.Names
import Stencil.Text.Quoted

/-!
# Quoted texts, lists of names and other tokens

Texts come back from their quotes as they were, and the names of a loop from their commas. The other
tokens are told apart by their first characters.
-/

namespace Stencil.Source

open Text

/-! ## Quotes -/

theorem between_append {mark : Char} {s : List Char} (hs : mark ∉ s) (t : List Char) :
    between mark (mark :: (s ++ mark :: t)) = some (s.length + 2) := by
  have hrun : run (· != mark) (s ++ mark :: t) = s.length := by
    refine run_append (fun c hc => bne_iff_ne.mpr fun h => hs (h ▸ hc)) (by simp [Stops])
  simp [between, hrun]

/-- The ways to spell a character between double quotes: as it is, with a backslash in front, and a
newline or a tab also by a letter. -/
inductive SpellsChar : Char → List Char → Prop
  | plain {c : Char} (hquote : c ≠ '"') (hback : c ≠ '\\') : SpellsChar c [c]
  | escaped {c : Char} (hline : c ≠ '\n') (hn : c ≠ 'n') (ht : c ≠ 't') : SpellsChar c ['\\', c]
  | newline : SpellsChar '\n' ['\\', 'n']
  | tab : SpellsChar '\t' ['\\', 't']

/-- A text is spelled character by character, each in any way. -/
inductive SpellsText : List Char → List Char → Prop
  | nil : SpellsText [] []
  | cons {c : Char} {s u t : List Char} (hc : SpellsChar c u) (h : SpellsText s t) :
    SpellsText (c :: s) (u ++ t)

/-- The closing quote is the first that no backslash takes along. -/
theorem quotedRest_spelled {s t : List Char} (h : SpellsText s t) (r : List Char) :
    quotedRest '"' true (t ++ '"' :: r) = some (t.length + 1) := by
  induction h with
  | nil => rfl
  | cons hc h ih =>
    cases hc with
    | plain hquote hback =>
      rw [List.append_assoc, List.singleton_append, quotedRest]
      · simp [hquote, hback, ih]
      · simp [hback]
    | escaped hline hn ht =>
      rw [List.append_assoc, List.cons_append, List.singleton_append, quotedRest]
      simp [hline, ih]
    | newline | tab =>
      rw [List.append_assoc, List.cons_append, List.singleton_append, quotedRest]
      simp [ih]

theorem decodeSpelling_spelled {s t : List Char} (h : SpellsText s t) : decodeSpelling t = s := by
  induction h with
  | nil => rfl
  | cons hc h ih =>
    cases hc with
    | plain hquote hback =>
      rw [List.singleton_append, decodeSpelling, ih]
      simp [hback]
    | escaped hline hn ht =>
      rw [List.cons_append, List.singleton_append, decodeSpelling, ih, escaped, if_neg hn,
        if_neg ht]
    | newline | tab =>
      rw [List.cons_append, List.singleton_append, decodeSpelling, ih]
      rfl

/-- A backslash in front of every quote and every backslash is one way to spell a text. -/
theorem spellsText_escape (s : List Char) : SpellsText s (Spell.escape s) := by
  induction s with
  | nil => exact .nil
  | cons c s ih =>
    unfold Spell.escape
    split
    · next hc =>
      have hescaped : SpellsChar c ['\\', c] := by
        rcases hc with rfl | rfl <;> exact .escaped (by decide) (by decide) (by decide)
      exact .cons hescaped ih
    · next hc =>
      rw [not_or] at hc
      exact .cons (.plain hc.2 hc.1) ih

theorem quotedText_spelled {s t : List Char} (h : SpellsText s t) (r : List Char) :
    quotedText (('"' :: (t ++ ['"'])) ++ r) = some ('"' :: (t ++ ['"'])).length := by
  have hrest := quotedRest_spelled h r
  simp [quotedText, hrest]

theorem unquote_spelled {s t : List Char} (h : SpellsText s t) :
    unquote ('"' :: (t ++ ['"'])) = s := by
  simp [unquote, decodeSpelling_spelled h]

theorem quotedText_append (s t : List Char) :
    quotedText (Spell.quote s ++ t) = some (Spell.quote s).length :=
  quotedText_spelled (spellsText_escape s) t

theorem quotedText_none {c : Char} (hc : c ≠ '"') (t : List Char) : quotedText (c :: t) = none := by
  unfold quotedText
  split
  · next h =>
    cases h
    exact absurd rfl hc
  · rfl

theorem unquote_quote (s : List Char) : unquote (Spell.quote s) = s :=
  unquote_spelled (spellsText_escape s)

/-! ## Lists of names -/

theorem length_le_furtherNames (names : List String) :
    names.length ≤ (Spell.furtherNames names).length := by
  induction names with
  | nil => exact Nat.le_refl _
  | cons name rest ih =>
    simp only [Spell.furtherNames, List.length_cons, List.length_append]
    omega

theorem namesRest_append {names : List String} (hnames : ∀ name ∈ names, isIdentifier name.toList)
    {n : Nat} (hn : names.length ≤ n) (t : List Char) :
    namesRest n (Spell.furtherNames names ++ ' ' :: 'i' :: t) =
      (Spell.furtherNames names).length := by
  induction names generalizing n with
  | nil =>
    cases n with
    | zero => rfl
    | succ n => rfl
  | cons name rest ih =>
    obtain ⟨hname, hrest⟩ := List.forall_mem_cons.mp hnames
    cases n with
    | zero => cases hn
    | succ n =>
      obtain ⟨c, more, hchars, hc, hmore⟩ := of_isIdentifier hname
      have hrun :
          run isWord (more ++ (Spell.furtherNames rest ++ ' ' :: 'i' :: t)) = more.length := by
        refine run_append (fun d hd => word_of_identifierChar (hmore d hd)) ?_
        cases rest <;> rfl
      have hspaces (u : List Char) : spaces (' ' :: c :: u) = 1 :=
        spaces_append (s := [' ']) (by simp [isSpace]) (firm_of_nameChar (nameChar_of_head hc) u)
      have hcomma (u : List Char) : spaces (',' :: u) = 0 := rfl
      have ih := ih hrest (Nat.le_of_succ_le_succ hn)
      simp only [Spell.furtherNames, hchars, List.cons_append, List.append_assoc, namesRest, hcomma,
        hspaces, List.drop_zero, List.drop_succ_cons, hc, if_true, hrun, List.drop_left, ih,
        List.length_cons, List.length_append]
      omega

theorem nameList_append {names : List String} (hne : names ≠ [])
    (hnames : ∀ name ∈ names, isIdentifier name.toList) (t : List Char) :
    nameList (Spell.names names ++ ' ' :: 'i' :: t) = some (Spell.names names).length := by
  cases names with
  | nil => exact absurd rfl hne
  | cons name rest =>
    obtain ⟨hname, hrest⟩ := List.forall_mem_cons.mp hnames
    obtain ⟨c, more, hchars, hc, hmore⟩ := of_isIdentifier hname
    have hrun :
        run isWord (more ++ (Spell.furtherNames rest ++ ' ' :: 'i' :: t)) = more.length := by
      refine run_append (fun d hd => word_of_identifierChar (hmore d hd)) ?_
      cases rest <;> rfl
    have hcount : rest.length ≤ (more ++ (Spell.furtherNames rest ++ ' ' :: 'i' :: t)).length := by
      have hrest := length_le_furtherNames rest
      simp only [List.length_append]
      omega
    simp only [Spell.names, hchars, List.cons_append, List.append_assoc, nameList, hc, if_true,
      hrun, List.drop_left]
    rw [namesRest_append hrest hcount]
    simp only [List.length_cons, List.length_append]
    congr 1
    omega

/-! ### The names of a loop -/

theorem splitOnChar_append {mark : Char} {s : List Char} (hs : mark ∉ s) (t : List Char) :
    splitOnChar mark (s ++ mark :: t) = s :: splitOnChar mark t := by
  induction s with
  | nil => simp [splitOnChar]
  | cons c s ih =>
    rw [List.mem_cons, not_or] at hs
    simp [splitOnChar, ih hs.2, Ne.symm hs.1]

theorem splitOnChar_single {mark : Char} {s : List Char} (hs : mark ∉ s) :
    splitOnChar mark s = [s] := by
  induction s with
  | nil => rfl
  | cons c s ih =>
    rw [List.mem_cons, not_or] at hs
    simp [splitOnChar, ih hs.2, Ne.symm hs.1]

theorem dropWhile_of_stops {p : Char → Bool} {s : List Char} (h : Stops p s) :
    s.dropWhile p = s := by
  cases s with
  | nil => rfl
  | cons c s =>
    have hc : p c = false := by simpa [Stops] using h
    simp [hc]

theorem length_dropWhile_lt {p : Char → Bool} {s : List Char} (h : ¬ Stops p s) :
    (s.dropWhile p).length < s.length := by
  cases s with
  | nil => exact absurd rfl h
  | cons c s =>
    have hc : p c = true := by simpa [Stops] using h
    rw [List.dropWhile_cons_of_pos hc]
    exact Nat.lt_succ_of_le (List.dropWhile_suffix p).length_le

/-- What trimming leaves as it is has no blank at either end. -/
theorem stops_of_trim {s : List Char} (h : trim s = s) :
    Stops isBlank s ∧ Stops isBlank s.reverse := by
  have hlength := congrArg List.length h
  have hend : (trimEnd (trimStart s)).length ≤ (trimStart s).length := by
    simpa [trimEnd] using (List.dropWhile_suffix isBlank (l := (trimStart s).reverse)).length_le
  have hstart : Stops isBlank s := by
    by_contra hblank
    have hshort : (trimStart s).length < s.length := length_dropWhile_lt hblank
    rw [trim] at hlength
    omega
  refine ⟨hstart, ?_⟩
  by_contra hblank
  have hshort : (s.reverse.dropWhile isBlank).length < s.reverse.length :=
    length_dropWhile_lt hblank
  rw [trim, trimStart, dropWhile_of_stops hstart, trimEnd, List.length_reverse] at hlength
  simp only [List.length_reverse] at hshort
  omega

theorem trim_of_stops {s : List Char} (hhead : Stops isBlank s) (hlast : Stops isBlank s.reverse) :
    trim s = s := by
  rw [trim, trimStart, trimEnd, dropWhile_of_stops hhead, dropWhile_of_stops hlast,
    List.reverse_reverse]

theorem trim_append_space {s : List Char} (hne : s ≠ []) (h : trim s = s) :
    trim (s ++ [' ']) = s := by
  obtain ⟨hhead, hlast⟩ := stops_of_trim h
  have hstart : Stops isBlank (s ++ [' ']) := by
    obtain ⟨c, more, rfl⟩ := List.exists_cons_of_ne_nil hne
    exact hhead
  rw [trim, trimStart, trimEnd, dropWhile_of_stops hstart, List.reverse_append,
    List.reverse_singleton, List.singleton_append,
    List.dropWhile_cons_of_pos (by decide : isBlank ' ' = true), dropWhile_of_stops hlast,
    List.reverse_reverse]

/-- A text that begins and ends with a character of an identifier. -/
def IsHeld (s : List Char) : Prop :=
  ∃ c d u v, s = c :: u ∧ s = v ++ [d] ∧ isIdentifierChar c ∧ isIdentifierChar d

theorem IsHeld.stops {s : List Char} (h : IsHeld s) {p : Char → Bool}
    (hp : ∀ c, isIdentifierChar c → p c = false) : Stops p s ∧ Stops p s.reverse := by
  obtain ⟨c, d, u, v, hu, hv, hc, hd⟩ := h
  constructor
  · rw [hu]
    exact hp c hc
  · rw [hv, List.reverse_append]
    exact hp d hd

theorem IsHeld.trim {s : List Char} (h : IsHeld s) : trim s = s := by
  obtain ⟨hhead, hlast⟩ := h.stops fun c hc => by simpa using notBlank_of_identifierChar hc
  exact trim_of_stops hhead hlast

theorem isHeld_identifier {s : List Char} (h : isIdentifier s) : IsHeld s := by
  have hchars := identifierChars h
  obtain ⟨c, more, rfl, -, -⟩ := of_isIdentifier h
  have hne := List.cons_ne_nil c more
  exact ⟨c, _, more, _, rfl, (List.dropLast_append_getLast hne).symm,
    hchars c (List.mem_cons_self ..), hchars _ (List.getLast_mem hne)⟩

theorem isHeld_names {name : String} {rest : List String} (hname : isIdentifier name.toList)
    (hrest : ∀ n ∈ rest, isIdentifier n.toList) : IsHeld (Spell.names (name :: rest)) := by
  induction rest generalizing name with
  | nil => simpa [Spell.names, Spell.furtherNames] using isHeld_identifier hname
  | cons n rest ih =>
    obtain ⟨hn, hrest⟩ := List.forall_mem_cons.mp hrest
    obtain ⟨-, d, -, v, -, hv, -, hd⟩ := ih hn hrest
    obtain ⟨c, -, u, -, hu, -, hc, -⟩ := isHeld_identifier hname
    refine ⟨c, d, u ++ Spell.furtherNames (n :: rest), name.toList ++ ',' :: ' ' :: v, ?_, ?_,
      hc, hd⟩
    · rw [Spell.names, hu]
      rfl
    · have hmore : Spell.names (name :: n :: rest) =
          name.toList ++ ',' :: ' ' :: Spell.names (n :: rest) := rfl
      rw [hmore, hv]
      simp

theorem comma_not_mem {name : List Char} (h : isIdentifier name) : ',' ∉ name := fun hmem =>
  absurd (identifierChars h ',' hmem) (by decide)

/-- What stands between the commas: a space in front of every name but the first. -/
theorem splitOnChar_names {name : List Char} {rest : List String} (hname : ',' ∉ name)
    (hrest : ∀ n ∈ rest, isIdentifier n.toList) :
    splitOnChar ',' (name ++ Spell.furtherNames rest) = name :: rest.map (' ' :: ·.toList) := by
  induction rest generalizing name with
  | nil => simpa [Spell.furtherNames] using splitOnChar_single hname
  | cons n rest ih =>
    obtain ⟨hn, hrest⟩ := List.forall_mem_cons.mp hrest
    have hspaced : ',' ∉ ' ' :: n.toList := by
      simpa using comma_not_mem hn
    rw [Spell.furtherNames, splitOnChar_append hname, ← List.cons_append, ih hspaced hrest,
      List.map_cons]

theorem trim_spaced {s : List Char} (h : isIdentifier s) : trim (' ' :: s) = s := by
  have hdrop : trimStart (' ' :: s) = trimStart s := by
    simp [trimStart, show isBlank ' ' = true by decide]
  rw [trim, hdrop]
  exact (isHeld_identifier h).trim

/-- The names of a loop are read as they were spelled. -/
theorem loopNames_names {names : List String} (hne : names ≠ [])
    (hnames : ∀ name ∈ names, isIdentifier name.toList) :
    (loopNames (Spell.names names)).map String.ofList = names := by
  cases names with
  | nil => exact absurd rfl hne
  | cons name rest =>
    obtain ⟨hname, hrest⟩ := List.forall_mem_cons.mp hnames
    have hheld := isHeld_names hname hrest
    have hopen := (hheld.stops (p := (· == '(')) fun c hc => by
      simpa using of_identifierChar (p := fun c => c != '(') (by decide) hc).1
    have hclose := (hheld.stops (p := (· == ')')) fun c hc => by
      simpa using of_identifierChar (p := fun c => c != ')') (by decide) hc).2
    simp only [loopNames]
    -- names have neither blanks nor parentheses at their ends, so there is nothing to take off
    rw [hheld.trim, dropWhile_of_stops hopen, dropWhile_of_stops hclose, List.reverse_reverse,
      Spell.names, splitOnChar_names (comma_not_mem hname) hrest]
    have htrims : rest.map (fun n => String.ofList (trim (' ' :: n.toList))) = rest :=
      (List.map_congr_left fun n hn => by
        rw [trim_spaced (hrest n hn), String.ofList_toList, id]).trans (List.map_id rest)
    simp only [List.map_cons, List.map_map, (isHeld_identifier hname).trim, String.ofList_toList]
    exact congrArg (name :: ·) htrims

/-! ## Other tokens -/

theorem wildcard_none {s t : List Char} (hs : isIdentifier s) (hne : s ≠ ['_']) :
    wildcard (s ++ t) = none := by
  obtain ⟨c, more, rfl, hc, hmore⟩ := of_isIdentifier hs
  unfold wildcard
  split
  · next rest h =>
    cases more with
    | nil =>
      cases h
      exact absurd rfl hne
    | cons d more =>
      cases h
      simp [word_of_identifierChar (hmore d (List.mem_cons_self ..))]
  · rfl

theorem number_none {c : Char} (hc : isAsciiLetter c) (t : List Char) : number (c :: t) = none := by
  have hdigit : isDigit c = false := by
    simpa using of_ascii (p := fun c => isAsciiLetter c → isDigit c = false) (by decide)
      (ascii_of_letter hc) hc
  have hminus : c ≠ '-' := by rintro rfl; exact absurd hc (by decide)
  have hplus : c ≠ '+' := by rintro rfl; exact absurd hc (by decide)
  simp [number, hminus, hplus, run, hdigit]

theorem comment_none {c : Char} (hc : c ≠ '!') (t : List Char) :
    comment ('<' :: c :: t) = none := by
  unfold comment
  split
  · next h =>
    cases h
    exact absurd rfl hc
  · rfl

theorem doctype_append (t : List Char) :
    doctype (Spell.doctype .rsx ++ t) = some (Spell.doctype .rsx).length := by
  rfl

theorem doctype_none {c : Char} (hc : c.toLower ≠ '!') (t : List Char) :
    doctype ('<' :: c :: t) = none := by
  have hcase : anyCase "<!doctype".toList ('<' :: c :: t) = none := by
    simp [anyCase, hc]
  unfold doctype
  dsimp only
  rw [hcase]
  rfl

end Stencil.Source
