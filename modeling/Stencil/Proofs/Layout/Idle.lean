import Stencil.Proofs.Agreement.Balanced
import Stencil.Proofs.Grammar.LoopNames
import Stencil.Proofs.Places.Lengths

/-!
# Idle texts

White space and closing braces are idle: no token of the dialect of tags goes on over them, white
space aside. Most scanners ignore an idle text that follows what they are given (`IgnoresIdle`). The
others take white space like any other character: where they take all that they are given, they take
the white space at the start of the idle text, too (`Spans`).
-/

namespace Stencil.Source

open Text

/-- White space or a closing brace. -/
def isIdle (c : Char) : Bool :=
  isSpace c || c == '}'

/-- White space and closing braces, maybe none. -/
def IsIdle (v : List Char) : Prop :=
  ∀ c ∈ v, isIdle c

/-- No character of the word is idle. -/
def IsBusy (word : List Char) : Prop :=
  ∀ c ∈ word, isIdle c = false

instance (word : List Char) : Decidable (IsBusy word) :=
  List.decidableBAll (fun c => isIdle c = false) word

theorem IsIdle.nil : IsIdle [] :=
  nofun

theorem IsIdle.append {u v : List Char} (hu : IsIdle u) (hv : IsIdle v) : IsIdle (u ++ v) :=
  List.forall_mem_append.mpr ⟨hu, hv⟩

theorem IsIdle.of_suffix {u v : List Char} (h : IsIdle v) (hu : u <:+ v) : IsIdle u :=
  fun c hc => h c (hu.mem hc)

theorem IsGap.isIdle {gap : List Char} (h : IsGap gap) : IsIdle gap :=
  fun c hc => by simp [Source.isIdle, h c hc]

theorem isIdle_cases {c : Char} (h : isIdle c) : isSpace c ∨ c = '}' := by
  simpa [isIdle] using h

/-- What holds of all idle characters is found by trying them. -/
theorem idle_all {p : Char → Bool} (hblank : ∀ n ∈ blankCodes, p (Char.ofNat n)) (hbrace : p '}')
    {c : Char} (h : isIdle c) : p c := by
  rcases isIdle_cases h with hc | rfl
  · rw [← Char.ofNat_toNat c]
    exact hblank _ (mem_blankCodes (isBlank_of_isSpace hc))
  · exact hbrace

theorem idle_not_word {c : Char} (h : isIdle c) : isWord c = false := by
  rcases isIdle_cases h with hc | rfl
  · by_contra hword
    have hblank := notBlank_of_word (by simpa using hword)
    rw [isBlank_of_isSpace hc] at hblank
    cases hblank
  · decide

/-- The marks and letters that tokens of the dialect of tags are made of, apart from word
characters. -/
theorem idle_not_mark {c : Char} (h : isIdle c) :
    c ∉ ['-', '.', ':', '_', '(', ')', '[', ']', '{', '<', '>', '!', '"', '\'', '\\', '@', ',', '=',
      '?', '/'] := by
  have hall := idle_all (p := fun c => c ∉ ['-', '.', ':', '_', '(', ')', '[', ']', '{', '<', '>',
    '!', '"', '\'', '\\', '@', ',', '=', '?', '/']) (by decide) (by decide) h
  simpa using hall

theorem idle_not_nameHead {c : Char} (h : isIdle c) : isNameHead c = false := by
  simpa using idle_all (p := fun c => !isNameHead c) (by decide) (by decide) h

theorem idle_not_letter {c : Char} (h : isIdle c) : isAsciiLetter c = false := by
  simpa using idle_all (p := fun c => !isAsciiLetter c) (by decide) (by decide) h

theorem idle_not_tagChar {c : Char} (h : isIdle c) : isTagChar c = false := by
  have hmark := idle_not_mark h
  simp only [List.mem_cons, not_or] at hmark
  simp [isTagChar, idle_not_word h, hmark]

theorem idle_not_attributeChar {c : Char} (h : isIdle c) : isAttributeChar c = false := by
  have hmark := idle_not_mark h
  simp only [List.mem_cons, not_or] at hmark
  simp [isAttributeChar, idle_not_word h, hmark]

/-- Code goes on over white space, but not over a closing brace. -/
theorem isCode_idle {c : Char} (h : isIdle c) : isCode c = isSpace c := by
  have hall := idle_all (p := fun c => isCode c == (c != '}')) (by decide) (by decide) h
  rcases isIdle_cases h with hc | rfl
  · have hne : c ≠ '}' := by
      rintro rfl
      cases hc
    rw [hc, eq_of_beq hall, bne_iff_ne]
    exact hne
  · rfl

/-- No character with the property begins an idle text. -/
theorem IsIdle.stops {p : Char → Bool} (hp : ∀ {c}, isIdle c → p c = false) {v : List Char}
    (h : IsIdle v) : Stops p v := by
  cases v with
  | nil => rfl
  | cons c v => exact hp (h c (List.mem_cons_self ..))

/-! ## Scanners that ignore them -/

/-- It makes no difference whether an idle text follows. -/
def IgnoresIdle {α : Type} (f : List Char → α) : Prop :=
  ∀ u v, IsIdle v → f (u ++ v) = f u

/-- A run goes on where the first text is exhausted. -/
theorem run_append_eq (p : Char → Bool) (u v : List Char) :
    run p (u ++ v) = if run p u = u.length then u.length + run p v else run p u := by
  unfold run
  rw [List.takeWhile_append]
  split
  · rw [List.length_append]
  · rfl

theorem run_ignores {p : Char → Bool} (hp : ∀ {c}, isIdle c → p c = false) :
    IgnoresIdle (run p) := by
  intro u v hv
  have hend : run p v = 0 := run_append (List.forall_mem_nil _) (hv.stops hp)
  rw [run_append_eq, hend]
  split
  · next h => exact h.symm
  · rfl

/-- A word without idle characters begins a text or not, whatever idle text follows. -/
theorem isPrefixOf_ignores {word : List Char} (hword : IsBusy word) :
    IgnoresIdle word.isPrefixOf := by
  intro u v hv
  induction word generalizing u with
  | nil => rfl
  | cons c word ih =>
    obtain ⟨hc, hword⟩ := List.forall_mem_cons.mp hword
    cases u with
    | nil =>
      cases v with
      | nil => rfl
      | cons d v =>
        have hne : c ≠ d := by
          rintro rfl
          rw [hv c (List.mem_cons_self ..)] at hc
          cases hc
        simp [List.isPrefixOf_cons_cons, hne]
    | cons d u => rw [List.cons_append, List.isPrefixOf_cons_cons, List.isPrefixOf_cons_cons, ih hword]

theorem literal_ignores {word : List Char} (hword : IsBusy word) :
    IgnoresIdle (literal word) := by
  intro u v hv
  rw [literal, literal, isPrefixOf_ignores hword u v hv]

theorem head_ignores {p : Char → Bool} (hp : ∀ {c}, isIdle c → p c = false) :
    IgnoresIdle fun text => text.head?.any p := by
  intro u v hv
  cases u with
  | nil => exact hv.stops hp
  | cons c u => rfl

theorem keyword_ignores {word : List Char} (hword : IsBusy word) :
    IgnoresIdle (keyword word) := by
  intro u v hv
  by_cases hu : word <+: u
  · obtain ⟨t, rfl⟩ := hu
    have hhead : (t ++ v).head?.any isWord = t.head?.any isWord :=
      head_ignores idle_not_word t v hv
    rw [List.append_assoc]
    simp only [keyword, List.drop_left, hhead, List.isPrefixOf_iff_prefix.mpr
      (List.prefix_append word _)]
  · have huv : word.isPrefixOf u = false := by
      rwa [← Bool.not_eq_true, List.isPrefixOf_iff_prefix]
    rw [keyword, keyword, isPrefixOf_ignores hword u v hv, huv]
    rfl

theorem tagNameRest_ignores : IgnoresIdle tagNameRest := by
  intro u v hv
  have hend : tagNameRest v = 0 := by
    have hrest := tagNameRest_append (s := []) (t := v) (List.forall_mem_nil _)
      (hv.stops fun {c} h => by
        have hmark := idle_not_mark h
        simp only [List.mem_cons, not_or] at hmark
        simp [idle_not_tagChar h, hmark])
    exact hrest
  fun_induction tagNameRest u with
  | case1 => exact hend
  | case2 c rest hc ih =>
    rw [List.cons_append, tagNameRest.eq_def]
    simp [hc, ih]
  | case3 c hc hmark d more hd ih => simp [tagNameRest, hc, hmark, hd, ih]
  | case4 c hc hmark d more hd => simp [tagNameRest, hc, hmark, hd]
  | case5 c hc hmark =>
    -- the mark is the last character, and nothing idle begins another part of the name
    cases v with
    | nil => rw [List.append_nil, tagNameRest.eq_def]; simp [hc, hmark]
    | cons d v =>
      have hd := idle_not_nameHead (hv d (List.mem_cons_self ..))
      simp [tagNameRest, hc, hmark, hd]
  | case6 c rest hc hmark =>
    rw [List.cons_append, tagNameRest.eq_def]
    simp [hc, hmark]

theorem tagName_ignores : IgnoresIdle tagName := by
  intro u v hv
  cases u with
  | nil =>
    cases v with
    | nil => rfl
    | cons d v =>
      have hd := idle_not_letter (hv d (List.mem_cons_self ..))
      simp [tagName, hd]
  | cons c u =>
    simp only [tagName, List.cons_append, tagNameRest_ignores u v hv]

theorem attributeMark_ignores : IgnoresIdle attributeMark := by
  intro u v hv
  cases u with
  | nil =>
    cases v with
    | nil => rfl
    | cons d v =>
      have hmark := idle_not_mark (hv d (List.mem_cons_self ..))
      simp only [List.mem_cons, not_or] at hmark
      simp [attributeMark, hmark]
  | cons c u =>
    unfold attributeMark
    rw [List.cons_append]
    split <;> simp_all

theorem attributeName_ignores : IgnoresIdle attributeName := by
  intro u v hv
  have hmark : attributeMark u ≤ u.length := by
    unfold attributeMark
    split <;> simp
  simp only [attributeName, attributeMark_ignores u v hv, List.drop_append_of_le_length hmark]
  rcases u.drop (attributeMark u) with _ | ⟨c, rest⟩
  · cases v with
    | nil => rfl
    | cons d v =>
      have hd := idle_not_nameHead (hv d (List.mem_cons_self ..))
      simp [hd]
  · simp [run_ignores idle_not_attributeChar rest v hv]

theorem wildcard_ignores : IgnoresIdle wildcard := by
  intro u v hv
  have hhead (rest : List Char) := head_ignores
    (p := fun c => isWord c || c == '.' || c == '(' || c == '[') (fun {c} h => by
      have hmark := idle_not_mark h
      simp only [List.mem_cons, not_or] at hmark
      simp [idle_not_word h, hmark]) rest v hv
  cases u with
  | nil =>
    cases v with
    | nil => rfl
    | cons d v =>
      have hmark := idle_not_mark (hv d (List.mem_cons_self ..))
      simp only [List.mem_cons, not_or] at hmark
      unfold wildcard
      split
      · next h =>
        cases h
        simp at hmark
      · rfl
  | cons c u =>
    -- what makes an underscore the start of an expression is not idle
    by_cases hc : c = '_'
    · subst hc
      have hhead := hhead u
      simp only [wildcard, List.cons_append, hhead]
    · unfold wildcard
      rw [List.cons_append]
      split <;> simp_all

/-- A text between two marks ends at the second one. -/
theorem between_ignores {mark : Char} (hmark : isIdle mark = false) :
    IgnoresIdle (between mark) := by
  intro u v hv
  cases u with
  | nil =>
    cases v with
    | nil => rfl
    | cons d v =>
      have hne : d ≠ mark := by
        rintro rfl
        rw [hv d (List.mem_cons_self ..)] at hmark
        cases hmark
      simp [between, hne]
  | cons c u =>
    have hother : ∀ d ∈ v, (d != mark) = true := fun d hd => by
      rw [bne_iff_ne]
      rintro rfl
      rw [hv d hd] at hmark
      cases hmark
    have hall : run (· != mark) v = v.length := by
      simpa using run_append hother (t := []) rfl
    have hle : run (· != mark) u ≤ u.length := run_le _ u
    simp only [between, List.cons_append, run_append_eq, hall, List.length_append]
    -- without a second mark in the text the run goes on to the end of what is idle
    by_cases hu : run (· != mark) u = u.length
    · simp [hu]
    · have hlt : run (· != mark) u < u.length := by omega
      have hmore : run (· != mark) u < u.length + v.length := by omega
      simp [hu, hlt, hmore]

theorem quotedRest_idle {quote : Char} (hquote : isIdle quote = false) (multiline : Bool)
    {v : List Char} (hv : IsIdle v) : quotedRest quote multiline v = none := by
  induction v with
  | nil => rfl
  | cons d v ih =>
    obtain ⟨hd, hv⟩ := List.forall_mem_cons.mp hv
    have hmark := idle_not_mark hd
    simp only [List.mem_cons, not_or] at hmark
    have hne : d ≠ quote := by
      rintro rfl
      rw [hd] at hquote
      cases hquote
    rw [quotedRest]
    · simp [hne, hmark, ih hv]
    · rintro c rest rfl
      simp at hmark

theorem quotedRest_ignores {quote : Char} (hquote : isIdle quote = false) (hescape : quote ≠ '\\')
    (multiline : Bool) : IgnoresIdle (quotedRest quote multiline) := by
  intro u v hv
  have hend := quotedRest_idle hquote multiline hv
  fun_induction quotedRest quote multiline u with
  | case1 => exact hend
  | case2 c rest hline => simp [quotedRest, hline]
  | case3 c rest hline ih => simp [quotedRest, hline, ih]
  | case4 c rest hno hc =>
    rw [List.cons_append, quotedRest]
    · simp [hc]
    · rintro d more rfl
      exact absurd (eq_of_beq hc).symm hescape
  | case5 c rest hno hc hstop =>
    by_cases hslash : c = '\\'
    · subst hslash
      -- the backslash is the last character, so what it escapes is idle
      have hrest : rest = [] := by
        cases rest with
        | nil => rfl
        | cons d more => exact (hno d more rfl rfl).elim
      subst hrest
      cases v with
      | nil => rw [List.append_nil, quotedRest, if_neg hc, if_pos hstop]; exact hno
      | cons d v =>
        have hnone := quotedRest_idle hquote multiline (v := v) fun e he =>
          hv e (List.mem_cons_of_mem _ he)
        simp [quotedRest, hnone]
    · rw [List.cons_append, quotedRest]
      · rw [if_neg hc, if_pos hstop]
      · intro d more h
        exact absurd h hslash
  | case6 c rest hno hc hstop ih =>
    rw [List.cons_append, quotedRest]
    · rw [if_neg hc, if_neg hstop, ih]
    · rintro d more rfl
      simp at hstop

theorem quotedText_ignores : IgnoresIdle quotedText := by
  intro u v hv
  cases u with
  | nil =>
    cases v with
    | nil => rfl
    | cons d v =>
      have hmark := idle_not_mark (hv d (List.mem_cons_self ..))
      simp only [List.mem_cons, not_or] at hmark
      exact quotedText_none (by simp [hmark]) v
  | cons c u =>
    by_cases hc : c = '"'
    · subst hc
      exact congrArg (Option.map (· + 1)) (quotedRest_ignores (by decide) (by decide) true u v hv)
    · rw [List.cons_append, quotedText_none hc, quotedText_none hc]

theorem exprString_ignores : IgnoresIdle exprString := by
  intro u v hv
  cases u with
  | nil =>
    cases v with
    | nil => rfl
    | cons d v =>
      have hmark := idle_not_mark (hv d (List.mem_cons_self ..))
      simp only [List.mem_cons, not_or] at hmark
      exact exprString_none (by simp [hmark]) (by simp [hmark]) v
  | cons c u =>
    by_cases hdouble : c = '"'
    · subst hdouble
      exact congrArg (Option.map (· + 1)) (quotedRest_ignores (by decide) (by decide) false u v hv)
    by_cases hsingle : c = '\''
    · subst hsingle
      exact congrArg (Option.map (· + 1)) (quotedRest_ignores (by decide) (by decide) false u v hv)
    rw [List.cons_append, exprString_none hdouble hsingle, exprString_none hdouble hsingle]

/-! ### Names of loops -/

theorem drop_spaces (text : List Char) : text.drop (spaces text) = text.dropWhile isSpace := by
  conv_lhs => rw [← List.takeWhile_append_dropWhile (p := isSpace) (l := text)]
  exact List.drop_left' (by rw [List.takeWhile_append_dropWhile, spaces, run])

/-- Behind the white space of an idle text there is nothing or a brace. -/
theorem drop_spaces_idle {v : List Char} (hv : IsIdle v) :
    v.drop (spaces v) = [] ∨ ∃ u, v.drop (spaces v) = '}' :: u := by
  rw [drop_spaces]
  rcases hdrop : v.dropWhile isSpace with _ | ⟨c, u⟩
  · exact .inl rfl
  · have hspace : isSpace c = false := by
      simpa [hdrop] using List.head_dropWhile_not isSpace (l := v) (by simp [hdrop])
    have hc : isIdle c := hv c ((List.dropWhile_suffix _).mem (hdrop ▸ List.mem_cons_self ..))
    obtain rfl : c = '}' := (isIdle_cases hc).resolve_left (by simp [hspace])
    exact .inr ⟨u, rfl⟩

theorem idle_drop_spaces {v : List Char} (hv : IsIdle v) (p : Char → Bool)
    (hp : ∀ {c}, isIdle c → p c = false) : Stops p (v.drop (spaces v)) :=
  (hv.of_suffix (List.drop_suffix _ _)).stops hp

/-- White space that ends in the first text. -/
theorem drop_spaces_of_lt {u : List Char} (h : spaces u < u.length) : ∃ c rest,
    u.drop (spaces u) = c :: rest ∧ rest.length < u.length ∧
      ∀ v, spaces (u ++ v) = spaces u ∧ (u ++ v).drop (spaces u) = c :: (rest ++ v) := by
  obtain ⟨c, rest, hdrop⟩ := List.exists_cons_of_ne_nil
    (fun hnil => Nat.not_le_of_lt h (List.drop_eq_nil_iff.mp hnil))
  have hlength := congrArg List.length hdrop
  simp only [List.length_drop, List.length_cons] at hlength
  refine ⟨c, rest, hdrop, by omega, fun v => ⟨?_, ?_⟩⟩
  · rw [spaces, run_append_eq]
    exact if_neg (Nat.ne_of_lt h)
  · rw [List.drop_append_of_le_length (Nat.le_of_lt h), hdrop, List.cons_append]

/-- White space up to the end of the first text, which goes on in the second. -/
theorem drop_spaces_of_eq {u : List Char} (h : spaces u = u.length) (v : List Char) :
    (u ++ v).drop (spaces (u ++ v)) = v.drop (spaces v) := by
  have hspaces : spaces (u ++ v) = u.length + spaces v := by
    rw [spaces, run_append_eq]
    exact if_pos h
  rw [hspaces, ← List.drop_drop, List.drop_left]

theorem namesRest_stops {n : Nat} {text : List Char}
    (h : Stops (· == ',') (text.drop (spaces text))) : namesRest n text = 0 := by
  cases n with
  | zero => rfl
  | succ n =>
    unfold namesRest
    dsimp only
    split
    · next hdrop =>
      rw [hdrop] at h
      cases h
    · rfl

theorem idle_not_comma {c : Char} (h : isIdle c) : (c == ',') = false := by
  have hmark := idle_not_mark h
  simp only [List.mem_cons, not_or] at hmark
  simp [hmark]

/-- The number of steps is no limit, and an idle text behind the names does not matter. -/
theorem namesRest_ignores {n m : Nat} {u v : List Char} (hv : IsIdle v) (hn : u.length ≤ n)
    (hm : u.length ≤ m) : namesRest n (u ++ v) = namesRest m u := by
  -- a further name is a comma with white space around it and a word, so the induction is on the
  -- length of what is left
  induction hk : u.length using Nat.strongRecOn generalizing u n m with
  | ind k ih =>
  rcases Nat.lt_or_eq_of_le (spaces_le u) with hlt | heq
  · obtain ⟨c, rest, hdrop, hrest, happend⟩ := drop_spaces_of_lt hlt
    obtain ⟨hspaces, hdropv⟩ := happend v
    by_cases hcomma : c = ','
    · subst hcomma
      obtain ⟨n, rfl⟩ := Nat.exists_eq_succ_of_ne_zero (show n ≠ 0 by omega)
      obtain ⟨m, rfl⟩ := Nat.exists_eq_succ_of_ne_zero (show m ≠ 0 by omega)
      simp only [namesRest, hspaces, hdrop, hdropv]
      rcases Nat.lt_or_eq_of_le (spaces_le rest) with hlt | heq
      · obtain ⟨d, more, hdrop, hmore, happend⟩ := drop_spaces_of_lt hlt
        obtain ⟨hspaces, hdropv⟩ := happend v
        have hle := run_le isWord more
        have hlength : (more.drop (run isWord more)).length ≤ more.length := by simp
        have hword : (more ++ v).drop (run isWord more) = more.drop (run isWord more) ++ v :=
          List.drop_append_of_le_length hle
        have hnext : namesRest n (more.drop (run isWord more) ++ v) =
            namesRest m (more.drop (run isWord more)) :=
          ih _ (by omega) (by omega) (by omega) rfl
        simp only [hspaces, hdrop, hdropv, run_ignores idle_not_word more v hv, hword, hnext]
      · -- the comma is the last character but white space, and nothing idle begins a name
        rw [drop_spaces_of_eq heq, heq, List.drop_length]
        have hhead := idle_drop_spaces hv isNameHead idle_not_nameHead
        cases hmore : v.drop (spaces v) with
        | nil => rfl
        | cons d more =>
          rw [hmore] at hhead
          have hd : isNameHead d = false := hhead
          simp [hd]
    · rw [namesRest_stops, namesRest_stops]
      · rw [hdrop]
        simpa [Stops] using hcomma
      · rw [hspaces, hdropv]
        simpa [Stops] using hcomma
  · rw [namesRest_stops, namesRest_stops]
    · rw [heq, List.drop_length]
      rfl
    · rw [drop_spaces_of_eq heq]
      exact idle_drop_spaces hv _ idle_not_comma

theorem nameList_ignores : IgnoresIdle nameList := by
  intro u v hv
  cases u with
  | nil =>
    cases v with
    | nil => rfl
    | cons d v =>
      have hd := idle_not_nameHead (hv d (List.mem_cons_self ..))
      simp [nameList, hd]
  | cons c u =>
    have hrun := run_ignores idle_not_word u v hv
    have hle := run_le isWord u
    have hdrop : (u ++ v).drop (run isWord u) = u.drop (run isWord u) ++ v :=
      List.drop_append_of_le_length hle
    simp only [nameList, List.cons_append, hrun, hdrop]
    rw [namesRest_ignores hv]
    · simp; omega
    · simp

/-! ### Comments and declarations -/

theorem commentRest_cons (c : Char) (rest : List Char) : commentRest (c :: rest) =
    if ['-', '-', '>'].isPrefixOf (c :: rest) then some 3 else (commentRest rest).map (· + 1) := by
  rw [commentRest.eq_def]
  split
  · next h =>
    rw [h]
    rfl
  · next hno h =>
    cases h
    rw [if_neg]
    intro hbefore
    obtain ⟨t, ht⟩ := List.isPrefixOf_iff_prefix.mp hbefore
    cases ht
    exact hno t rfl rfl
  · next h => cases h

theorem commentRest_idle {v : List Char} (hv : IsIdle v) : commentRest v = none := by
  induction v with
  | nil => rfl
  | cons d v ih =>
    obtain ⟨hd, hv⟩ := List.forall_mem_cons.mp hv
    have hmark := idle_not_mark hd
    simp only [List.mem_cons, not_or] at hmark
    rw [commentRest_cons, ih hv]
    simp [List.isPrefixOf_cons_cons, Ne.symm hmark.1]

theorem commentRest_ignores : IgnoresIdle commentRest := by
  intro u v hv
  induction u with
  | nil => exact commentRest_idle hv
  | cons c u ih =>
    have hbefore : ['-', '-', '>'].isPrefixOf (c :: u ++ v) = ['-', '-', '>'].isPrefixOf (c :: u) :=
      isPrefixOf_ignores (by decide) (c :: u) v hv
    rw [List.cons_append] at hbefore ⊢
    rw [commentRest_cons, commentRest_cons, hbefore, ih]

theorem comment_eq (text : List Char) : comment text =
    if ['<', '!', '-', '-'].isPrefixOf text then (commentRest (text.drop 4)).map (· + 4) else none := by
  unfold comment
  split
  · simp
  · next h =>
    rw [if_neg]
    intro hbefore
    obtain ⟨t, rfl⟩ := List.isPrefixOf_iff_prefix.mp hbefore
    exact h t rfl

theorem comment_ignores : IgnoresIdle comment := by
  intro u v hv
  rw [comment_eq, comment_eq, isPrefixOf_ignores (by decide) u v hv]
  split
  · next h =>
    obtain ⟨t, rfl⟩ := List.isPrefixOf_iff_prefix.mp h
    exact congrArg _ (commentRest_ignores t v hv)
  · rfl

theorem idle_toLower {c : Char} (h : isIdle c) : c.toLower = c := by
  have hall := idle_all (p := fun c => c.toLower == c) (by decide) (by decide) h
  exact eq_of_beq hall

theorem anyCase_ignores {word : List Char} (hword : IsBusy word) :
    IgnoresIdle (anyCase word) := by
  intro u v hv
  have hmap : ((u ++ v).take word.length).map Char.toLower = word ↔
      (u.take word.length).map Char.toLower = word := by
    induction word generalizing u with
    | nil => simp
    | cons c word ih =>
      obtain ⟨hc, hword⟩ := List.forall_mem_cons.mp hword
      cases u with
      | nil =>
        cases v with
        | nil => rfl
        | cons d v =>
          have hd := hv d (List.mem_cons_self ..)
          have hne : d ≠ c := by
            rintro rfl
            rw [hd] at hc
            cases hc
          simp [idle_toLower hd, hne]
      | cons d u =>
        simp only [List.cons_append, List.length_cons, List.take_succ_cons, List.map_cons,
          List.cons.injEq, ih hword]
  simp only [anyCase, beq_iff_eq, hmap]

theorem fits_anyCase (word : List Char) : Fits (anyCase word) := by
  intro text n hn
  unfold anyCase at hn
  split at hn
  · next h =>
    cases hn
    have hlength := congrArg List.length (eq_of_beq h)
    simp only [List.length_map, List.length_take] at hlength
    omega
  · cases hn

section

variable {α : Type} {f : Scanner} {g : Nat → List Char → Option α}

/-- What comes after a token may look at what follows it. -/
theorem IgnoresIdle.next (hf : IgnoresIdle f) (hfits : Fits f) (hg : ∀ n, IgnoresIdle (g n)) :
    IgnoresIdle fun text => (f text).bind fun n => g n (text.drop n) := by
  intro u v hv
  dsimp only
  rw [hf u v hv]
  cases hn : f u with
  | none => rfl
  | some n =>
    rw [Option.bind_some, Option.bind_some, List.drop_append_of_le_length (hfits u n hn), hg n _ v hv]

/-- What comes after white space may, if there is nothing in front of an idle text. -/
theorem ignores_spaces1 (hg : ∀ n, IgnoresIdle (g n)) (hend : ∀ n, g n [] = none) :
    IgnoresIdle fun text => (spaces1 text).bind fun n => g n (text.drop n) := by
  intro u v hv
  have hnone {n : Nat} {r : List Char} (hr : IsIdle r) : g n r = none := by
    rw [← hend n, ← hg n [] r hr]
    rfl
  have hbind (text : List Char) : ((spaces1 text).bind fun n => g n (text.drop n)) =
      if spaces text = 0 then none else g (spaces text) (text.drop (spaces text)) := by
    by_cases hzero : run isSpace text = 0 <;> simp [spaces1, run1, spaces, hzero]
  dsimp only
  rw [hbind, hbind]
  rcases Nat.lt_or_eq_of_le (spaces_le u) with hlt | heq
  · obtain ⟨c, rest, hdrop, -, happend⟩ := drop_spaces_of_lt hlt
    obtain ⟨hspaces, hdropv⟩ := happend v
    rw [hspaces, hdropv, hdrop, ← List.cons_append, hg _ _ v hv]
  · rw [drop_spaces_of_eq heq, heq, List.drop_length, hend,
      hnone (hv.of_suffix (List.drop_suffix _ _))]
    simp

end

/-- The end of a declaration of some length. -/
def declarationEnd (length : Nat) : Scanner := fun text =>
  match text.drop (spaces text) with
  | '>' :: _ => some (length + spaces text + 1)
  | _ => none

theorem declarationEnd_ignores (length : Nat) : IgnoresIdle (declarationEnd length) := by
  intro u v hv
  unfold declarationEnd
  rcases Nat.lt_or_eq_of_le (spaces_le u) with hlt | heq
  · obtain ⟨c, rest, hdrop, -, happend⟩ := drop_spaces_of_lt hlt
    obtain ⟨hspaces, hdropv⟩ := happend v
    rw [hspaces, hdropv, hdrop]
    by_cases hc : c = '>'
    · subst hc
      rfl
    · split <;> split <;> simp_all
  · rw [drop_spaces_of_eq heq, heq, List.drop_length]
    have hhead := idle_drop_spaces hv (· == '>') fun {c} h => by
      have hmark := idle_not_mark h
      simp only [List.mem_cons, not_or] at hmark
      simp [hmark]
    split
    · next hdrop =>
      rw [hdrop] at hhead
      cases hhead
    · rfl

theorem doctype_ignores : IgnoresIdle doctype := by
  have hopening : IsBusy "<!doctype".toList := by decide
  have hword : IsBusy "html".toList := by decide
  have hname (n m : Nat) : IgnoresIdle fun text =>
      (anyCase "html".toList text).bind fun k => declarationEnd (n + m + k) (text.drop k) :=
    (anyCase_ignores hword).next (fits_anyCase _) fun k => declarationEnd_ignores (n + m + k)
  have hspaces (n : Nat) : IgnoresIdle fun text => (spaces1 text).bind fun m =>
      (anyCase "html".toList (text.drop m)).bind fun k =>
        declarationEnd (n + m + k) ((text.drop m).drop k) :=
    ignores_spaces1 (hname n) fun m => rfl
  have hall : IgnoresIdle fun text => (anyCase "<!doctype".toList text).bind fun n =>
      (spaces1 (text.drop n)).bind fun m =>
        (anyCase "html".toList ((text.drop n).drop m)).bind fun k =>
          declarationEnd (n + m + k) (((text.drop n).drop m).drop k) :=
    (anyCase_ignores hopening).next (fits_anyCase _) hspaces
  have heq : doctype = fun text => (anyCase "<!doctype".toList text).bind fun n =>
      (spaces1 (text.drop n)).bind fun m =>
        (anyCase "html".toList ((text.drop n).drop m)).bind fun k =>
          declarationEnd (n + m + k) (((text.drop n).drop m).drop k) := by
    funext text
    simp only [doctype, declarationEnd, List.drop_drop]
    rfl
  rw [heq]
  exact hall

/-! ## Scanners that go on over white space -/

/-- Where all of a text is taken, so is the white space of the idle text behind it. -/
def Spans (length : List Char → Nat) : Prop :=
  ∀ u v, IsIdle v →
    length (u ++ v) = if length u = u.length then u.length + spaces v else length u

theorem spans_spaces : Spans spaces :=
  fun u v _ => run_append_eq isSpace u v

theorem run_code_idle {v : List Char} (hv : IsIdle v) : run isCode v = spaces v := by
  induction v with
  | nil => rfl
  | cons c v ih =>
    obtain ⟨hc, hv⟩ := List.forall_mem_cons.mp hv
    have ih := ih hv
    simp only [spaces, run] at ih ⊢
    rw [List.takeWhile_cons, List.takeWhile_cons, isCode_idle hc]
    split
    · rw [List.length_cons, List.length_cons, ih]
    · rfl

theorem spans_code : Spans (run isCode) := by
  intro u v hv
  rw [run_append_eq, run_code_idle hv]

/-- A scanner that takes a character or stops, as the text that begins there tells it. -/
theorem spans_of_cons {length : List Char → Nat} {p : List Char → Bool} (hnil : length [] = 0)
    (hcons : ∀ c rest, length (c :: rest) = if p (c :: rest) then 1 + length rest else 0)
    (hidle : ∀ c v, IsIdle (c :: v) → p (c :: v) = isSpace c)
    (hp : ∀ c u v, IsIdle v → p (c :: u ++ v) = p (c :: u)) : Spans length := by
  have hend (v : List Char) (hv : IsIdle v) : length v = spaces v := by
    induction v with
    | nil => exact hnil
    | cons c v ih =>
      have ih := ih (List.forall_mem_cons.mp hv).2
      rw [hcons, hidle c v hv, ih, spaces, spaces, run, run, List.takeWhile_cons]
      split
      · rw [List.length_cons, Nat.add_comm]
      · rfl
  intro u v hv
  induction u with
  | nil => simp [hnil, hend v hv]
  | cons c u ih =>
    have hpc := hp c u v hv
    rw [List.cons_append] at hpc ⊢
    rw [hcons, hcons, hpc, ih]
    by_cases hc : p (c :: u)
    · by_cases hu : length u = u.length
      · simp [hc, hu, Nat.add_comm 1, Nat.add_right_comm]
      · have hne : ¬ 1 + length u = u.length + 1 := by omega
        simp [hc, hu, hne]
    · simp [hc]

theorem spans_patternCode : Spans patternCodeLength := by
  refine spans_of_cons (p := fun text => !(['=', '>'].isPrefixOf text) && text.head?.any isCode) rfl
    (fun c rest => ?_) (fun c v hv => ?_) fun c u v hv => ?_
  · rw [patternCodeLength.eq_def]
    split
    · next h =>
      cases h
      rfl
    · next hno h =>
      cases h
      have hbefore : ['=', '>'].isPrefixOf (c :: rest) = false := by
        rw [← Bool.not_eq_true, List.isPrefixOf_iff_prefix]
        rintro ⟨t, ht⟩
        cases ht
        exact hno t rfl rfl
      simp [hbefore]
    · next h => cases h
  · have hbefore : ['=', '>'].isPrefixOf (c :: v) = ['=', '>'].isPrefixOf [] :=
      isPrefixOf_ignores (by decide) [] (c :: v) hv
    simp [hbefore, isCode_idle (hv c (List.mem_cons_self ..))]
  · rw [isPrefixOf_ignores (by decide) (c :: u) v hv]
    rfl

/-- The text goes on as plain text. -/
def isPlain : List Char → Bool
  | [] => false
  | c :: rest => !(c == '<' || c == '{' || c == '}' || c == '"') &&
    !(c == '@' && controlWords.any fun word => (keyword word rest).isSome)

theorem plainLength_cons (c : Char) (rest : List Char) :
    plainLength (c :: rest) = if isPlain (c :: rest) then 1 + plainLength rest else 0 := by
  rw [plainLength, isPlain]
  by_cases hmark : (c == '<' || c == '{' || c == '}' || c == '"') = true
  · simp [hmark]
  · by_cases hword : (c == '@' && controlWords.any fun word => (keyword word rest).isSome) = true
    · simp [hmark, hword]
    · simp [hmark, hword]

theorem spans_plain : Spans plainLength := by
  refine spans_of_cons (p := isPlain) rfl plainLength_cons (fun c v hv => ?_) fun c u v hv => ?_
  · have hc := hv c (List.mem_cons_self ..)
    have hmark := idle_not_mark hc
    simp only [List.mem_cons, not_or] at hmark
    rcases isIdle_cases hc with hspace | rfl
    · have hne : c ≠ '}' := by
        rintro rfl
        cases hspace
      simp [isPlain, hmark, hspace, hne]
    · rfl
  · have hwords : (controlWords.any fun word => (keyword word (u ++ v)).isSome) =
        controlWords.any fun word => (keyword word u).isSome := by
      have hall : ∀ word ∈ controlWords, IsBusy word := by decide
      rw [Bool.eq_iff_iff, List.any_eq_true, List.any_eq_true]
      exact exists_congr fun word => and_congr_right fun hword => by
        rw [keyword_ignores (hall word hword) u v hv]
    rw [List.cons_append, isPlain, isPlain, hwords]

/-- A scanner of runs that are not empty, and that go on over white space. -/
def IsSpan (scanner : Scanner) : Prop :=
  ∃ length, Spans length ∧ (∀ text, length text ≤ text.length) ∧
    ∀ text, scanner text = if length text = 0 then none else some (length text)

theorem isSpan_run1 {p : Char → Bool} (h : Spans (run p)) : IsSpan (run1 p) :=
  ⟨run p, h, run_le p, fun text => by simp [run1]⟩

theorem isSpan_spaces1 : IsSpan spaces1 :=
  isSpan_run1 spans_spaces

theorem isSpan_code : IsSpan code :=
  isSpan_run1 spans_code

theorem isSpan_patternCode : IsSpan patternCode :=
  ⟨patternCodeLength, spans_patternCode, patternCodeLength_le, fun text => by simp [patternCode]⟩

theorem isSpan_plainText : IsSpan plainText :=
  ⟨plainLength, spans_plain, plainLength_le, fun text => by simp [plainText]⟩

end Stencil.Source
