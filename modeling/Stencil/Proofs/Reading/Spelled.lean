import Stencil.Proofs.Reading.Strings
import Stencil.Proofs.Reading.Tokens

/-!
# The text of a token

A text is laid out as its tokens, one after the other, with characters between them that belong to
none (`laidOut_spelled`). The text of a string is a prefix without quotes, one or three quotes, the
inside of the string and the same quotes again (`InQuotes`). So a text has at least two quotes for
each of its strings, and all further quotes of a string are inside.
-/

namespace Stencil.Term

open Text Number

/-- A token with the text that spells it. -/
structure Spelled where
  token : Token
  text : List Char

/-- The tokens of a text with what spells them. -/
def spelled? (place : Place) : Nat → List Char → Option (List Spelled)
  | 0, _ => none
  | _, [] => some []
  | n + 1, c :: rest =>
    if c == ' ' || c == '\t' || c == '\x0c' then spelled? { place with indented := true } n rest
    else if c == '#' then spelled? place n (rest.dropWhile (· != '\n'))
    else if c == '\n' then
      if place.depth == 0 && place.hasTokens then
        (spelled? ⟨0, false, false⟩ n rest).map (⟨.lineEnd, [c]⟩ :: ·)
      else spelled? { place with indented := false } n rest
    else if c == '\\' then do spelled? place n (← nextLine? rest)
    else do
      let (token, width, depth) ← token? place.depth (c :: rest)
      let first : Spelled := ⟨token, (c :: rest).take width⟩
      if place.depth == 0 && place.indented && !place.hasTokens then none
      else (spelled? ⟨depth, true, false⟩ n ((c :: rest).drop width)).map (first :: ·)

/-- A quote. -/
def isQuote (c : Char) : Bool :=
  c == '"' || c == '\''

/-- How many quotes delimit a string on each side. -/
def quoteWidth (literal : List Char) : Nat :=
  match literal.dropWhile fun c => !isQuote c with
  | [] => 1
  | quote :: rest => if (quote :: rest).take 3 == [quote, quote, quote] then 3 else 1

/-- The text between the quotes that delimit a string. -/
def inside (literal : List Char) : List Char :=
  let body := literal.dropWhile fun c => !isQuote c
  (body.take (body.length - quoteWidth literal)).drop (quoteWidth literal)

/-- A text in quotes: a prefix, one or three quotes, the inside, and the quotes again. -/
def InQuotes (literal : List Char) : Prop :=
  ∃ mark quote, (∀ c ∈ mark, isQuote c = false) ∧ isQuote quote = true ∧
    literal = mark ++ (List.replicate (quoteWidth literal) quote ++
      (inside literal ++ List.replicate (quoteWidth literal) quote))

/-- A text is laid out as the texts of tokens, with other characters between them. A string is a
text in quotes. -/
inductive LaidOut : List Char → List Spelled → Prop
  | nil : LaidOut [] []
  | skip (c : Char) {text : List Char} {ls : List Spelled} (h : LaidOut text ls) :
    LaidOut (c :: text) ls
  | token {l : Spelled} (hl : l.token.isString = true → InQuotes l.text) {text : List Char}
    {ls : List Spelled} (h : LaidOut text ls) : LaidOut (l.text ++ text) (l :: ls)

/-! ## Tokens and their texts -/

theorem scan_eq_spelled (place : Place) (n : Nat) (cs : List Char) :
    scan? place n cs = (spelled? place n cs).map (List.map Spelled.token) := by
  induction n generalizing place cs with
  | zero => rfl
  | succ n ih =>
    cases cs with
    | nil => rfl
    | cons c rest =>
      rw [scan?, spelled?]
      split
      · exact ih _ _
      split
      · exact ih _ _
      split
      · split
        · rw [ih, Option.map_map, Option.map_map]
          rfl
        · exact ih _ _
      split
      · cases nextLine? rest with
        | none => rfl
        | some more => exact ih _ _
      · cases token? place.depth (c :: rest) with
        | none => rfl
        | some found =>
          show (if _ then _ else _ : Option (List Token)) = Option.map _ (if _ then _ else _)
          split
          · rfl
          · rw [ih, Option.map_map, Option.map_map]
            rfl

/-! ## Strings -/

theorem take_closes {q : Quoting} {cs : List Char} (h : q.closes cs = true) :
    cs.take q.width = List.replicate q.width q.quote := by
  obtain ⟨quote, triple, verbatim⟩ := q
  cases triple with
  | true => exact beq_iff_eq.mp h
  | false =>
    obtain ⟨rest, rfl⟩ := List.head?_eq_some_iff.mp (beq_iff_eq.mp h)
    rfl

/-- What is read of a string behind its first quotes ends with the same quotes. -/
theorem take_stringBody {q : Quoting} {n k : Nat} {cs s : List Char}
    (h : stringBody? q n cs = some (s, k)) :
    ∃ body, cs.take k = body ++ List.replicate q.width q.quote := by
  induction n generalizing cs s k with
  | zero => cases h
  | succ n ih =>
    cases cs with
    | nil => cases h
    | cons c rest =>
      rw [stringBody?] at h
      split at h
      · next hcloses =>
        cases h
        exact ⟨[], take_closes hcloses⟩
      split at h
      · cases h
      split at h
      · obtain ⟨⟨chars, width⟩, -, h⟩ := Option.bind_eq_some_iff.mp h
        obtain ⟨⟨s', k'⟩, hs, hout⟩ := Option.bind_eq_some_iff.mp h
        obtain ⟨body, hbody⟩ := ih hs
        cases hout
        refine ⟨c :: (rest.take width ++ body), ?_⟩
        rw [List.take_succ_cons, Nat.add_comm k', List.take_add, hbody]
        simp
      · obtain ⟨⟨s', k'⟩, hs, hout⟩ := Option.map_eq_some_iff.mp h
        obtain ⟨body, hbody⟩ := ih hs
        cases hout
        exact ⟨c :: body, by rw [List.take_succ_cons, hbody, List.cons_append]⟩

/-- How a string literal is written that begins with a quote. -/
def quotingOf (verbatim : Bool) (quote : Char) (cs : List Char) : Quoting :=
  ⟨quote, (quote :: cs).take 3 == [quote, quote, quote], verbatim⟩

theorem closes_quotingOf (verbatim : Bool) (quote : Char) (cs : List Char) :
    (quotingOf verbatim quote cs).closes (quote :: cs) = true := by
  unfold quotingOf Quoting.closes
  split
  · next h => exact h
  · rw [List.head?_cons, beq_self_eq_true]

/-- A string literal is read up to the end of its quotes. -/
theorem take_string {verbatim : Bool} {quote : Char} {cs : List Char} {t : Token} {k : Nat}
    (h : string? verbatim (quote :: cs) = some (t, k)) :
    ∃ body, (quote :: cs).take k = List.replicate (quotingOf verbatim quote cs).width quote ++
      (body ++ List.replicate (quotingOf verbatim quote cs).width quote) := by
  rw [string_eq] at h
  obtain ⟨⟨s, l⟩, hs, hout⟩ := Option.map_eq_some_iff.mp h
  obtain ⟨body, hbody⟩ := take_stringBody hs
  have hopen := take_closes (closes_quotingOf verbatim quote cs)
  have hk : k = (quotingOf verbatim quote cs).width + l := by
    cases hout
    rfl
  refine ⟨body, ?_⟩
  rw [hk, List.take_add, hopen]
  exact congrArg _ hbody

/-- The quotes at the start of what is read are those that the literal is written with. -/
theorem width_take {verbatim : Bool} {quote : Char} {cs body : List Char} {k : Nat}
    (h : (quote :: cs).take k = List.replicate (quotingOf verbatim quote cs).width quote ++
      (body ++ List.replicate (quotingOf verbatim quote cs).width quote)) :
    (if ((quote :: cs).take k).take 3 == [quote, quote, quote] then 3 else 1) =
      (quotingOf verbatim quote cs).width := by
  unfold quotingOf at h ⊢
  cases htriple : (quote :: cs).take 3 == [quote, quote, quote] with
  | true =>
    rw [htriple] at h
    rw [h]
    simp [Quoting.width, List.replicate]
  | false =>
    refine if_neg fun hthree => ?_
    -- three quotes in what is read would be three at its start
    rw [List.take_take, beq_iff_eq] at hthree
    have hmin : min 3 k = 3 := by
      have hlen := congrArg List.length hthree
      simp only [List.length_take, List.length_cons, List.length_nil] at hlen
      omega
    rw [hmin] at hthree
    rw [beq_iff_eq.mpr hthree] at htriple
    cases htriple

theorem dropWhile_mark {mark rest : List Char} (hmark : ∀ c ∈ mark, isQuote c = false)
    {quote : Char} (hquote : isQuote quote = true) :
    (mark ++ quote :: rest).dropWhile (fun c => !isQuote c) = quote :: rest := by
  rw [List.dropWhile_append_of_pos fun c hc => by rw [hmark c hc]; rfl,
    List.dropWhile_cons_of_neg (by simp [hquote])]

/-- A prefix and a string literal are a text in quotes. -/
theorem inQuotes_take {verbatim : Bool} {mark cs : List Char} {quote : Char} {t : Token} {k : Nat}
    (hmark : ∀ c ∈ mark, isQuote c = false) (hquote : isQuote quote = true)
    (h : string? verbatim (quote :: cs) = some (t, k)) :
    InQuotes (mark ++ (quote :: cs).take k) := by
  obtain ⟨body, htake⟩ := take_string h
  have hw := width_take htake
  obtain ⟨v, hv⟩ : ∃ v, (quotingOf verbatim quote cs).width = v + 1 := by
    unfold Quoting.width
    split
    · exact ⟨2, rfl⟩
    · exact ⟨0, rfl⟩
  rw [hv] at htake hw
  -- no prefix has a quote in it, so the first quote is that of the literal
  have hdrop : (mark ++ (quote :: cs).take k).dropWhile (fun c => !isQuote c) =
      (quote :: cs).take k := by
    rw [htake, List.replicate_succ, List.cons_append]
    exact dropWhile_mark hmark hquote
  have hwidth : quoteWidth (mark ++ (quote :: cs).take k) = v + 1 := by
    rw [quoteWidth, hdrop, htake, List.replicate_succ, List.cons_append]
    dsimp only
    rw [← List.cons_append, ← List.replicate_succ, ← htake, hw]
  have hinside : inside (mark ++ (quote :: cs).take k) = body := by
    rw [inside, hdrop, hwidth, htake]
    simp [List.take_append]
  refine ⟨mark, quote, hmark, hquote, ?_⟩
  rw [hwidth, hinside, htake]

/-! ## Other tokens -/

theorem not_string_number {cs : List Char} {t : Token} {k : Nat}
    (h : number? cs = some (t, k)) : t.isString = false := by
  unfold number? at h
  dsimp only at h
  split at h
  · cases h
  split at h
  · cases h
    rfl
  split at h
  · cases h
    rfl
  split at h
  · split at h
    · cases h
      rfl
    · cases h
  split at h
  · cases h
  · cases h
    rfl

set_option maxRecDepth 2000 in
theorem not_quote_of_rest {c : Char} (h : isIdentifierRest c = true) : isQuote c = false := by
  rw [← Bool.not_eq_true]
  intro hquote
  rcases Bool.or_eq_true_iff.mp hquote with hc | hc <;> rw [beq_iff_eq.mp hc] at h <;>
    exact absurd h (by decide)

/-- A word that is a string is the prefix of one and the string. -/
theorem word_inQuotes {cs : List Char} {t : Token} {k : Nat} (h : word? cs = some (t, k))
    (ht : t.isString = true) : InQuotes (cs.take k) := by
  have hprefix := List.takeWhile_prefix isIdentifierRest (l := cs)
  have hmark (c : Char) (hc : c ∈ cs.takeWhile isIdentifierRest) : isQuote c = false :=
    not_quote_of_rest (List.mem_takeWhile_imp hc)
  have hword : cs.take (cs.takeWhile isIdentifierRest).length = cs.takeWhile isIdentifierRest :=
    (List.prefix_iff_eq_take.mp hprefix).symm
  unfold word? at h
  generalize cs.takeWhile isIdentifierRest = word at h hmark hword
  dsimp only at h
  split at h
  · next hquoted =>
    obtain ⟨⟨u, n⟩, hu, hout⟩ := Option.map_eq_some_iff.mp h
    cases hout
    rw [List.take_add, hword]
    rw [Bool.and_eq_true] at hquoted
    generalize cs.drop word.length = rest at hu hquoted
    cases rest with
    | nil => cases hquoted.1
    | cons quote rest => exact inQuotes_take hmark hquoted.1 hu
  split at h
  · cases h
  · cases h
    split at ht <;> cases ht

theorem token_inQuotes {cs : List Char} {t : Token} {d k e : Nat}
    (h : token? d cs = some (t, k, e)) (ht : t.isString = true) : InQuotes (cs.take k) := by
  cases cs with
  | nil => cases h
  | cons c cs =>
    rw [token?] at h
    split at h
    · obtain ⟨⟨u, l⟩, hu, hout⟩ := Option.map_eq_some_iff.mp h
      cases hout
      exact word_inQuotes hu ht
    split at h
    · next hquote =>
      obtain ⟨⟨u, l⟩, hu, hout⟩ := Option.map_eq_some_iff.mp h
      cases hout
      exact inQuotes_take (List.forall_mem_nil _) hquote hu
    split at h
    · next hnumber =>
      cases h
      rw [not_string_number hnumber] at ht
      cases ht
    · obtain ⟨⟨s, l⟩, -, hout⟩ := Option.bind_eq_some_iff.mp h
      change (if _ then none else some _) = _ at hout
      split at hout
      · cases hout
      · cases hout
        cases ht

/-! ## The whole text -/

theorem LaidOut.append {text : List Char} {ls : List Spelled} (h : LaidOut text ls)
    (gap : List Char) : LaidOut (gap ++ text) ls := by
  induction gap with
  | nil => exact h
  | cons c gap ih => exact .skip c ih

theorem LaidOut.suffix {text whole : List Char} {ls : List Spelled} (h : LaidOut text ls)
    (hsuffix : text <:+ whole) : LaidOut whole ls := by
  obtain ⟨gap, rfl⟩ := hsuffix
  exact h.append gap

/-- **A text is laid out as its tokens.** -/
theorem laidOut_spelled {place : Place} {n : Nat} {cs : List Char} {ls : List Spelled}
    (h : spelled? place n cs = some ls) : LaidOut cs ls := by
  induction n generalizing place cs ls with
  | zero => cases h
  | succ n ih =>
    cases cs with
    | nil =>
      cases h
      exact .nil
    | cons c rest =>
      rw [spelled?] at h
      split at h
      · exact .skip c (ih h)
      split at h
      · exact .skip c ((ih h).suffix (List.dropWhile_suffix _))
      split at h
      · split at h
        · obtain ⟨more, hmore, rfl⟩ := Option.map_eq_some_iff.mp h
          exact .token (l := ⟨.lineEnd, [c]⟩) (fun h => by cases h) (ih hmore)
        · exact .skip c (ih h)
      split at h
      · obtain ⟨more, hmore, h⟩ := Option.bind_eq_some_iff.mp h
        exact .skip c ((ih h).suffix (nextLine_before [] hmore).2)
      · obtain ⟨⟨t, k, e⟩, ht, h⟩ := Option.bind_eq_some_iff.mp h
        change (if _ then none else _) = _ at h
        split at h
        · cases h
        · obtain ⟨more, hmore, rfl⟩ := Option.map_eq_some_iff.mp h
          have hlaid : LaidOut ((c :: rest).take k ++ (c :: rest).drop k)
              (⟨t, (c :: rest).take k⟩ :: more) :=
            .token (l := ⟨t, (c :: rest).take k⟩) (token_inQuotes ht) (ih hmore)
          rwa [List.take_append_drop] at hlaid

/-! ## Counting quotes -/

/-- The number of quotes in a text. -/
def quotes (text : List Char) : Nat :=
  text.countP isQuote

@[simp] theorem quotes_append (a b : List Char) : quotes (a ++ b) = quotes a + quotes b :=
  List.countP_append

theorem quotes_eq_zero {text : List Char} :
    quotes text = 0 ↔ ∀ c ∈ text, isQuote c = false := by
  simp [quotes, List.countP_eq_zero]

theorem any_isQuote {text : List Char} : text.any isQuote = true ↔ quotes text ≠ 0 := by
  rw [Ne, quotes_eq_zero]
  simp

theorem quotes_cons (c : Char) (text : List Char) :
    quotes (c :: text) = quotes [c] + quotes text :=
  quotes_append [c] text

/-- The delimiters of a string and the quotes inside are all quotes of its text. -/
theorem InQuotes.quotes_eq {literal : List Char} (h : InQuotes literal) :
    quotes literal = 2 * quoteWidth literal + quotes (inside literal) := by
  obtain ⟨mark, quote, hmark, hquote, htext⟩ := h
  have hdelimiter (n : Nat) : quotes (List.replicate n quote) = n := by
    simp [quotes, List.countP_replicate, hquote]
  have hcount := congrArg quotes htext
  rw [quotes_append, quotes_append, quotes_append, quotes_eq_zero.mpr hmark, hdelimiter] at hcount
  omega

theorem quoteWidth_pos (literal : List Char) : 1 ≤ quoteWidth literal := by
  unfold quoteWidth
  split
  · exact Nat.le.refl
  · split <;> decide

/-- The strings among tokens. -/
def strings (ls : List Spelled) : List Spelled :=
  ls.filter fun l => l.token.isString

theorem strings_cons (l : Spelled) (ls : List Spelled) :
    strings (l :: ls) = if l.token.isString then l :: strings ls else strings ls :=
  List.filter_cons

/-- A text has two quotes at least for each of its strings. -/
theorem LaidOut.strings_le {text : List Char} {ls : List Spelled} (h : LaidOut text ls) :
    2 * (strings ls).length ≤ quotes text := by
  induction h with
  | nil => exact Nat.le.refl
  | skip c h ih =>
    rw [quotes_cons]
    omega
  | @token l hl text ls h ih =>
    rw [quotes_append, strings_cons]
    split
    · next hstring =>
      have hwidth := quoteWidth_pos l.text
      rw [List.length_cons, (hl hstring).quotes_eq]
      omega
    · omega

/-- Each string stands in the text, in quotes. -/
theorem LaidOut.exists_string {text : List Char} {ls : List Spelled} (h : LaidOut text ls)
    {l : Spelled} (hl : l ∈ strings ls) :
    InQuotes l.text ∧ ∃ before after, text = before ++ (l.text ++ after) := by
  induction h with
  | nil => cases hl
  | skip c h ih =>
    obtain ⟨hquotes, before, after, rfl⟩ := ih hl
    exact ⟨hquotes, c :: before, after, rfl⟩
  | @token m hm text ls h ih =>
    obtain ⟨hmem, hstring⟩ := List.mem_filter.mp hl
    rcases List.mem_cons.mp hmem with rfl | hmem
    · exact ⟨hm hstring, [], text, rfl⟩
    · obtain ⟨hquotes, before, after, rfl⟩ := ih (List.mem_filter.mpr ⟨hmem, hstring⟩)
      exact ⟨hquotes, m.text ++ before, after, by rw [List.append_assoc]⟩

/-- A text splits in one way only at its first quote. -/
theorem split_quote {front front' back back' : List Char} {c d : Char}
    (hfront : quotes front = 0) (hfront' : quotes front' = 0) (hc : isQuote c = true)
    (hd : isQuote d = true) (h : front ++ c :: back = front' ++ d :: back') :
    front = front' ∧ c = d ∧ back = back' := by
  have hdrop := congrArg (List.dropWhile fun c => !isQuote c) h
  rw [dropWhile_mark (quotes_eq_zero.mp hfront) hc,
    dropWhile_mark (quotes_eq_zero.mp hfront') hd] at hdrop
  obtain ⟨rfl, rfl⟩ := List.cons.inj hdrop
  exact ⟨List.append_cancel_right h, rfl, rfl⟩

/-- The string in a text that has two quotes in all is what stands between them. -/
theorem InQuotes.inside_eq {text literal before after front body back : List Char} {c d : Char}
    (h : InQuotes literal) (htext : text = before ++ (literal ++ after)) (htwo : quotes text ≤ 2)
    (hfront : quotes front = 0) (hbody : quotes body = 0) (hc : isQuote c = true)
    (hd : isQuote d = true) (hsplit : text = front ++ c :: (body ++ d :: back)) :
    c = d ∧ inside literal = body := by
  have hcount := h.quotes_eq
  have hpositive := quoteWidth_pos literal
  rw [htext, quotes_append, quotes_append] at htwo
  -- a triple quote on both sides would be six quotes
  have hwidth : quoteWidth literal = 1 := by omega
  obtain ⟨mark, quote, hmark, hquote, hliteral⟩ := h
  rw [hwidth] at hliteral
  have hwhole : (before ++ mark) ++ quote :: (inside literal ++ quote :: after) =
      front ++ c :: (body ++ d :: back) := by
    rw [← hsplit, htext]
    conv => rhs; rw [hliteral]
    simp
  have hmarked : quotes (before ++ mark) = 0 := by
    rw [quotes_append, quotes_eq_zero.mpr hmark]
    omega
  obtain ⟨-, hopen, hrest⟩ := split_quote hmarked hfront hquote hc hwhole
  obtain ⟨hinside, hclose, -⟩ := split_quote (by omega) hbody hquote hd hrest
  exact ⟨hopen.symm.trans hclose, hinside⟩

/-! ## Line breaks -/

theorem quotes_unifyLines (cs : List Char) : quotes (unifyLines cs) = quotes cs := by
  fun_induction unifyLines cs with
  | case1 => rfl
  | case2 rest ih => exact ih
  | case3 rest hrest ih => exact ih
  | case4 c rest hc₁ hc₂ ih => rw [quotes_cons, quotes_cons c rest, ih]

/-- No line break reaches across a quote. -/
theorem unifyLines_quote {quote : Char} (hquote : isQuote quote = true) (before after : List Char) :
    unifyLines (before ++ quote :: after) = unifyLines before ++ quote :: unifyLines after := by
  fun_induction unifyLines before with
  | case1 =>
    rw [List.nil_append, unifyLines]
    · rfl
    · rintro _ rfl
      cases hquote
    · rintro rfl
      cases hquote
  | case2 rest ih =>
    rw [List.cons_append, List.cons_append, unifyLines, ih]
    rfl
  | case3 rest hrest ih =>
    rw [List.cons_append, unifyLines, ih]
    · rfl
    · intro more hmore
      cases rest with
      | nil =>
        cases hmore
        cases hquote
      | cons d rest =>
        cases hmore
        exact hrest _ rfl
  | case4 c rest hc₁ hc₂ ih =>
    rw [List.cons_append, unifyLines, ih]
    · rfl
    · exact fun _ hc => absurd hc hc₂
    · exact hc₂

end Stencil.Term
