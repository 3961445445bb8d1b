import Stencil.Proofs.Reading.Program
import Mathlib.Data.List.TakeWhile

/-!
# Tokens before a closing parenthesis

No token reaches into what closes an expression, a line break and a parenthesis: every token of a
text is one of the text with these two behind it. The depth of brackets is not the same, but all
that depends on it is which line breaks are line ends.
-/

namespace Stencil.Term

open Text Number

/-- What stands behind an expression: a closing parenthesis on the next line. The line break is
missing if it was taken for the second half of one. -/
inductive Closing : List Char → Prop
  | line : Closing ['\n', ')']
  | paren : Closing [')']

variable {z : List Char}

/-! ## Runs of characters -/

theorem takeWhile_before {p : Char → Bool} (hline : p '\n' = false) (hparen : p ')' = false)
    (hz : Closing z) (cs : List Char) : (cs ++ z).takeWhile p = cs.takeWhile p := by
  have h : z.takeWhile p = [] := by cases hz <;> simp [hline, hparen]
  rw [List.takeWhile_append]
  split
  · next hlen =>
    rw [h, List.append_nil]
    exact ((List.takeWhile_prefix p).eq_of_length hlen).symm
  · rfl

theorem takeWhile_before_take {p : Char → Bool} (hline : p '\n' = false) (hparen : p ')' = false)
    (hz : Closing z) (n : Nat) (cs : List Char) :
    ((cs ++ z).take n).takeWhile p = (cs.take n).takeWhile p := by
  induction n generalizing cs with
  | zero => simp
  | succ n ih =>
    cases cs with
    | nil => cases hz <;> simp [hline, hparen]
    | cons c cs =>
      simp only [List.cons_append, List.take_succ_cons, List.takeWhile_cons, ih]

theorem drop_before {n : Nat} {cs : List Char} (h : n ≤ cs.length) :
    (cs ++ z).drop n = cs.drop n ++ z := by
  rw [List.drop_append_of_le_length h]

/-! ## Numbers -/

theorem takeSign_before (hz : Closing z) (cs : List Char) :
    takeSign (cs ++ z) = ((takeSign cs).1, (takeSign cs).2 ++ z) := by
  cases cs with
  | nil => cases hz <;> rfl
  | cons c cs =>
    rw [List.cons_append, takeSign.eq_def, takeSign.eq_def]
    split <;> simp_all

theorem exponent_before (hz : Closing z) (cs : List Char) :
    exponent? (cs ++ z) = exponent? cs := by
  cases cs with
  | nil => cases hz <;> rfl
  | cons c cs =>
    have hsign := takeSign_before hz cs
    rcases hs : takeSign cs with ⟨negative, body⟩
    rw [hs] at hsign
    have hdigits : (body ++ z).takeWhile isAsciiDigit = body.takeWhile isAsciiDigit :=
      takeWhile_before (by decide) (by decide) hz body
    have hlen : (cs ++ z).length - (body ++ z).length = cs.length - body.length := by
      simp only [List.length_append]; omega
    simp only [List.cons_append, exponent?, hsign, hs, hdigits, hlen]

theorem exponent_length {cs : List Char} {e : Int} {n : Nat} (h : exponent? cs = some (e, n)) :
    n ≤ cs.length := by
  cases cs with
  | nil => cases h
  | cons c cs =>
    have hbody : (takeSign cs).2.length ≤ cs.length := by
      rw [takeSign.eq_def]
      split <;> simp
    have hdigits := (List.takeWhile_prefix isAsciiDigit (l := (takeSign cs).2)).length_le
    simp only [exponent?] at h
    split at h
    · split at h
      · cases h
      · cases h
        rw [List.length_cons]
        omega
    · cases h

theorem fraction_before (hz : Closing z) (cs : List Char) : fraction (cs ++ z) = fraction cs := by
  cases cs with
  | nil => cases hz <;> rfl
  | cons c cs =>
    have hdigits : (cs ++ z).takeWhile isAsciiDigit = cs.takeWhile isAsciiDigit :=
      takeWhile_before (by decide) (by decide) hz cs
    rw [List.cons_append, fraction.eq_def, fraction.eq_def]
    split <;> simp_all

theorem fraction_length (cs : List Char) :
    (if (fraction cs).2 then 1 else 0) + (fraction cs).1.length ≤ cs.length := by
  rw [fraction.eq_def]
  split
  · next more =>
    have := (List.takeWhile_prefix isAsciiDigit (l := more)).length_le
    simp only [if_true, List.length_cons]
    omega
  · simp

/-- A number without its exponent is no longer than the text. -/
theorem numeral_length {cs f : List Char} {p : Bool}
    (hf : fraction (cs.drop (cs.takeWhile isAsciiDigit).length) = (f, p)) :
    (cs.takeWhile isAsciiDigit).length + (if p then 1 else 0) + f.length ≤ cs.length := by
  have hwhole := (List.takeWhile_prefix isAsciiDigit (l := cs)).length_le
  have hlen := fraction_length (cs.drop (cs.takeWhile isAsciiDigit).length)
  simp only [hf, List.length_drop] at hlen
  omega

theorem number_length {cs : List Char} {t : Token} {n : Nat} (h : number? cs = some (t, n)) :
    n ≤ cs.length := by
  rcases hf : fraction (cs.drop (cs.takeWhile isAsciiDigit).length) with ⟨f, p⟩
  have hlen := numeral_length hf
  simp only [number?, hf] at h
  split at h
  · cases h
  split at h
  · next e k he =>
    have := exponent_length he
    rw [List.length_drop] at this
    cases h
    omega
  split at h
  · next hp =>
    rw [if_pos hp] at hlen
    cases h
    exact hlen
  next hp =>
  rw [if_neg hp] at hlen
  split at h
  · split at h
    · cases h
      exact hlen
    · cases h
  split at h
  · cases h
  · cases h
    exact hlen

theorem number_before (hz : Closing z) (cs : List Char) : number? (cs ++ z) = number? cs := by
  have hwhole : (cs ++ z).takeWhile isAsciiDigit = cs.takeWhile isAsciiDigit :=
    takeWhile_before (by decide) (by decide) hz cs
  have hle := (List.takeWhile_prefix isAsciiDigit (l := cs)).length_le
  have hfraction : fraction ((cs ++ z).drop (cs.takeWhile isAsciiDigit).length) =
      fraction (cs.drop (cs.takeWhile isAsciiDigit).length) := by
    rw [drop_before hle, fraction_before hz]
  rcases hf : fraction (cs.drop (cs.takeWhile isAsciiDigit).length) with ⟨f, p⟩
  have hexponent : exponent? ((cs ++ z).drop ((cs.takeWhile isAsciiDigit).length +
        (if p then 1 else 0) + f.length)) =
      exponent? (cs.drop ((cs.takeWhile isAsciiDigit).length + (if p then 1 else 0) + f.length)) := by
    rw [drop_before (numeral_length hf), exponent_before hz]
  simp only [number?, hwhole, hfraction, hf, hexponent]

/-! ## Symbols -/

theorem symbol_before (hz : Closing z) (c : Char) (cs : List Char) :
    symbol? (c :: cs ++ z) = symbol? (c :: cs) := by
  have hline : pairSymbol? c '\n' = none := by unfold pairSymbol?; split <;> simp_all
  have hparen : pairSymbol? c ')' = none := by unfold pairSymbol?; split <;> simp_all
  cases cs with
  | nil => cases hz <;> simp [symbol?, hline, hparen]
  | cons d cs => rfl

theorem symbol_length {cs : List Char} {s : Symbol} {n : Nat} (h : symbol? cs = some (s, n)) :
    n ≤ cs.length := by
  unfold symbol? at h
  split at h
  · cases h
  · obtain ⟨_, -, hs⟩ := Option.map_eq_some_iff.mp h
    cases hs
    simp
  · split at h
    · cases h
      simp
    · obtain ⟨_, -, hs⟩ := Option.map_eq_some_iff.mp h
      cases hs
      simp

/-! ## Strings -/

theorem hexChar_before (z : List Char) {w : Nat} {cs : List Char} {c : Char}
    (h : hexChar? w cs = some c) : w ≤ cs.length ∧ hexChar? w (cs ++ z) = some c := by
  have hw : w ≤ cs.length := by
    simp only [hexChar?] at h
    split at h
    · next hlen =>
      have hle := List.length_filterMap_le hexValue? (cs.take w)
      simp only [Bool.and_eq_true, beq_iff_eq, List.length_take] at hlen hle
      omega
    · cases h
  refine ⟨hw, ?_⟩
  rw [← h, hexChar?, hexChar?, List.take_append_of_le_length hw]

theorem escape_before (hz : Closing z) {cs s : List Char} {k : Nat}
    (h : escape? cs = some (s, k)) : k ≤ cs.length ∧ escape? (cs ++ z) = some (s, k) := by
  have hex {w : Nat} {rest : List Char} (h : (hexChar? w rest).map (fun c => ([c], w + 1)) = some (s, k)) :
      k ≤ rest.length + 1 ∧ (hexChar? w (rest ++ z)).map (fun c => ([c], w + 1)) = some (s, k) := by
    obtain ⟨c, hc, hs⟩ := Option.map_eq_some_iff.mp h
    obtain ⟨hw, hc'⟩ := hexChar_before z hc
    rw [hc']
    cases hs
    exact ⟨by omega, rfl⟩
  rw [escape?.eq_def] at h
  split at h
  · cases h
  · cases h
    exact ⟨by simp, rfl⟩
  · exact hex h
  · exact hex h
  · exact hex h
  · cases h
  · next c rest hline hx hu hU hN =>
    have hoctal := takeWhile_before_take (p := fun d => '0' ≤ d && d ≤ '7')
      (by decide) (by decide) hz 3 (c :: rest)
    have hlen : (((c :: rest).take 3).takeWhile fun d => '0' ≤ d && d ≤ '7').length ≤
        (c :: rest).length :=
      Nat.le_trans (List.takeWhile_prefix _).length_le (List.length_take_le' _ _)
    rw [List.cons_append, escape?.eq_7 _ _ hline hx hu hU hN, ← List.cons_append]
    refine ⟨?_, ?_⟩
    · split at h
      · cases h
        simp
      · simp only at h
        split at h
        · cases h
          simp
        · cases h
          exact hlen
    · rw [← h]
      simp only [hoctal]

theorem quoting_escape_before (hz : Closing z) {q : Quoting} {cs s : List Char} {k : Nat}
    (h : q.escape? cs = some (s, k)) : k ≤ cs.length ∧ q.escape? (cs ++ z) = some (s, k) := by
  unfold Quoting.escape? at h ⊢
  split at h
  · next hq =>
    rw [if_pos hq]
    cases cs with
    | nil => cases h
    | cons c cs =>
      cases h
      exact ⟨by simp, rfl⟩
  · next hq =>
    rw [if_neg hq]
    exact escape_before hz h

section

variable {quote : Char} (hz : Closing z) (hline : quote ≠ '\n') (hparen : quote ≠ ')')

include hz hline hparen

/-- What closes an expression is no quote. -/
theorem triple_before (cs : List Char) :
    ((cs ++ z).take 3 == [quote, quote, quote]) = (cs.take 3 == [quote, quote, quote]) := by
  match cs with
  | [] => cases hz <;> simp
  | [c] => cases hz <;> simp [hline.symm]
  | [c, d] =>
    cases hz with
    | line => simp [hline.symm]
    | paren => simp [hparen.symm]
  | c :: d :: e :: rest => rfl

theorem closes_before (triple verbatim : Bool) (c : Char) (cs : List Char) :
    Quoting.closes ⟨quote, triple, verbatim⟩ (c :: cs ++ z) =
      Quoting.closes ⟨quote, triple, verbatim⟩ (c :: cs) := by
  cases triple with
  | true => exact triple_before hz hline hparen (c :: cs)
  | false => rfl

omit hz hline hparen in
theorem triple_length {cs : List Char} (h : cs.take 3 == [quote, quote, quote]) :
    3 ≤ cs.length := by
  have hlen := congrArg List.length (beq_iff_eq.mp h)
  rw [List.length_take] at hlen
  simp only [List.length_cons, List.length_nil] at hlen
  omega

omit hz hline hparen in
theorem closes_length {triple verbatim : Bool} {c : Char} {cs : List Char}
    (h : Quoting.closes ⟨quote, triple, verbatim⟩ (c :: cs)) :
    Quoting.width ⟨quote, triple, verbatim⟩ ≤ (c :: cs).length := by
  cases triple with
  | true => exact triple_length h
  | false => exact Nat.succ_le_succ (Nat.zero_le _)

theorem stringBody_before (triple verbatim : Bool) {n m k : Nat} {cs s : List Char} (hm : n ≤ m)
    (h : stringBody? ⟨quote, triple, verbatim⟩ n cs = some (s, k)) :
    k ≤ cs.length ∧ stringBody? ⟨quote, triple, verbatim⟩ m (cs ++ z) = some (s, k) := by
  induction n generalizing m k cs s with
  | zero => cases h
  | succ n ih =>
    obtain ⟨m, rfl⟩ : ∃ l, m = l + 1 := ⟨m - 1, by omega⟩
    cases cs with
    | nil => cases h
    | cons c cs =>
      have hcloses := closes_before hz hline hparen triple verbatim c cs
      rw [stringBody?] at h
      rw [List.cons_append] at hcloses ⊢
      rw [stringBody?, hcloses]
      split at h
      · next hc =>
        rw [if_pos hc]
        cases h
        exact ⟨closes_length hc, rfl⟩
      next hc =>
      rw [if_neg hc]
      split at h
      · cases h
      next hbreak =>
      rw [if_neg hbreak]
      split at h
      · next hback =>
        rw [if_pos hback]
        obtain ⟨⟨chars, width⟩, hescape, h⟩ := Option.bind_eq_some_iff.mp h
        obtain ⟨⟨s', k'⟩, hs, hout⟩ := Option.bind_eq_some_iff.mp h
        obtain ⟨hwidth, hescape'⟩ := quoting_escape_before hz hescape
        obtain ⟨hk, hs'⟩ := ih (Nat.le_of_succ_le_succ hm) hs
        rw [List.length_drop] at hk
        rw [hescape', Option.bind_eq_bind, Option.bind_some]
        dsimp only
        rw [drop_before hwidth, hs']
        cases hout
        exact ⟨by rw [List.length_cons]; omega, rfl⟩
      · next hback =>
        rw [if_neg hback]
        obtain ⟨⟨s', k'⟩, hs, hout⟩ := Option.map_eq_some_iff.mp h
        obtain ⟨hk, hs'⟩ := ih (Nat.le_of_succ_le_succ hm) hs
        rw [hs']
        cases hout
        exact ⟨Nat.succ_le_succ hk, rfl⟩

omit hz hline hparen in
theorem string_eq (verbatim : Bool) (cs : List Char) : string? verbatim (quote :: cs) =
    let q : Quoting := ⟨quote, (quote :: cs).take 3 == [quote, quote, quote], verbatim⟩
    (stringBody? q (quote :: cs).length ((quote :: cs).drop q.width)).map
      fun (s, k) => (.str s, q.width + k) :=
  rfl

omit hz hline hparen in
/-- The quotes at the start of a string literal stand in the text. -/
theorem width_length (quote : Char) (verbatim : Bool) (cs : List Char) :
    Quoting.width ⟨quote, (quote :: cs).take 3 == [quote, quote, quote], verbatim⟩ ≤
      (quote :: cs).length := by
  unfold Quoting.width
  split
  · next h => exact triple_length h
  · exact Nat.succ_le_succ (Nat.zero_le _)

/-- A string literal is read whole before what closes the expression. -/
theorem string_before {verbatim : Bool} {cs : List Char} {t : Token} {k : Nat}
    (h : string? verbatim (quote :: cs) = some (t, k)) :
    k ≤ (quote :: cs).length ∧ string? verbatim (quote :: cs ++ z) = some (t, k) := by
  have htriple := triple_before hz hline hparen (quote :: cs)
  have hwidth := width_length quote verbatim cs
  rw [string_eq] at h
  obtain ⟨⟨s, l⟩, hs, hout⟩ := Option.map_eq_some_iff.mp h
  have hlen : (quote :: cs).length ≤ (quote :: cs ++ z).length := by simp
  obtain ⟨hl, hs'⟩ := stringBody_before hz hline hparen _ _ hlen hs
  rw [List.cons_append] at htriple ⊢
  rw [string_eq, htriple, ← List.cons_append]
  dsimp only
  rw [drop_before hwidth, hs']
  rw [List.length_drop] at hl
  cases hout
  exact ⟨by omega, rfl⟩

end

/-! ## Words -/

set_option maxRecDepth 2000 in
theorem isIdentifierRest_line : isIdentifierRest '\n' = false := by decide

set_option maxRecDepth 2000 in
theorem isIdentifierRest_paren : isIdentifierRest ')' = false := by decide

set_option maxRecDepth 2000 in
theorem isIdentifierHead_open : isIdentifierHead '(' = false := by decide

set_option maxRecDepth 2000 in
theorem isIdentifierHead_paren : isIdentifierHead ')' = false := by decide

theorem isQuoted_before (hz : Closing z) (cs : List Char) : isQuoted (cs ++ z) = isQuoted cs := by
  cases cs with
  | nil => cases hz <;> rfl
  | cons c cs => rfl

theorem exists_quote (cs : List Char) (h : isQuoted cs = true) :
    ∃ c rest, cs = c :: rest ∧ c ≠ '\n' ∧ c ≠ ')' := by
  cases cs with
  | nil => cases h
  | cons c rest =>
    refine ⟨c, rest, rfl, ?_, ?_⟩ <;> rintro rfl <;> cases h

/-- A word, or a string literal with its prefix, is read whole before what closes the expression. -/
theorem word_before (hz : Closing z) {cs : List Char} {t : Token} {k : Nat}
    (h : word? cs = some (t, k)) : k ≤ cs.length ∧ word? (cs ++ z) = some (t, k) := by
  have hword : (cs ++ z).takeWhile isIdentifierRest = cs.takeWhile isIdentifierRest :=
    takeWhile_before isIdentifierRest_line isIdentifierRest_paren hz cs
  have hlen := (List.takeWhile_prefix isIdentifierRest (l := cs)).length_le
  have hsize := List.length_drop (l := cs) (i := (cs.takeWhile isIdentifierRest).length)
  simp only [word?, hword, drop_before hlen, isQuoted_before hz] at h ⊢
  generalize cs.takeWhile isIdentifierRest = word at h hlen hsize ⊢
  generalize cs.drop word.length = rest at h hsize ⊢
  split at h
  · next hprefix =>
    rw [if_pos hprefix]
    obtain ⟨⟨u, l⟩, hs, hout⟩ := Option.map_eq_some_iff.mp h
    obtain ⟨c, rest, rfl, hline, hparen⟩ := exists_quote _ (Bool.and_eq_true_iff.mp hprefix).1
    obtain ⟨hl, hs'⟩ := string_before hz hline hparen hs
    rw [hs']
    cases hout
    exact ⟨by omega, rfl⟩
  next hprefix =>
  rw [if_neg hprefix]
  split at h
  · cases h
  · next hother =>
    rw [if_neg hother]
    cases h
    exact ⟨hlen, rfl⟩

/-! ## The whole text -/

/-- A token is the same before what closes the expression, however deep in brackets. -/
theorem token_before (hz : Closing z) {cs : List Char} {d d' k k' e e' : Nat} {t t' : Token}
    (h : token? d cs = some (t, k, e)) (h' : token? d' (cs ++ z) = some (t', k', e')) :
    k ≤ cs.length ∧ t' = t ∧ k' = k := by
  cases cs with
  | nil => cases h
  | cons c cs =>
    rw [List.cons_append] at h'
    rw [token?] at h h'
    split at h
    · next hc =>
      rw [if_pos hc] at h'
      obtain ⟨⟨u, l⟩, hu, hout⟩ := Option.map_eq_some_iff.mp h
      obtain ⟨hl, hu'⟩ := word_before hz hu
      rw [← List.cons_append, hu'] at h'
      cases hout
      cases h'
      exact ⟨hl, rfl, rfl⟩
    next hc =>
    rw [if_neg hc] at h'
    split at h
    · next hquote =>
      rw [if_pos hquote] at h'
      obtain ⟨⟨u, l⟩, hu, hout⟩ := Option.map_eq_some_iff.mp h
      obtain ⟨_, _, hcs, hline, hparen⟩ := exists_quote (c :: cs) hquote
      cases hcs
      obtain ⟨hl, hu'⟩ := string_before hz hline hparen hu
      rw [← List.cons_append, hu'] at h'
      cases hout
      cases h'
      exact ⟨hl, rfl, rfl⟩
    next hquote =>
    rw [if_neg hquote, ← List.cons_append, number_before hz] at h'
    split at h
    · next u l hu =>
      rw [hu] at h'
      cases h
      cases h'
      exact ⟨number_length hu, rfl, rfl⟩
    · next hu =>
      rw [hu] at h'
      dsimp only at h'
      rw [symbol_before hz] at h'
      obtain ⟨⟨s, l⟩, hs, hout⟩ := Option.bind_eq_some_iff.mp h
      rw [hs] at h'
      have hlen := symbol_length hs
      change (if _ then none else some _) = _ at hout
      change (if _ then none else some _) = _ at h'
      split at hout
      · cases hout
      · split at h'
        · cases h'
        · cases hout
          cases h'
          exact ⟨hlen, rfl, rfl⟩

theorem token_paren {d e k : Nat} {t : Token} (h : token? d [')'] = some (t, k, e)) :
    t = .symbol .closeParen ∧ k = 1 := by
  rw [token?, if_neg (by rw [isIdentifierHead_paren]; nofun)] at h
  change (if _ then none else some _) = _ at h
  split at h
  · cases h
  · cases h
    exact ⟨rfl, rfl⟩

theorem token_open (cs : List Char) :
    token? 0 ('(' :: cs) = some (.symbol .openParen, 1, 1) := by
  have hsymbol : symbol? ('(' :: cs) = some (.openParen, 1) := by cases cs <;> rfl
  rw [token?, if_neg (by rw [isIdentifierHead_open]; nofun)]
  change (symbol? ('(' :: cs)).bind _ = _
  rw [hsymbol]
  rfl

theorem scan_open (n : Nat) (cs : List Char) : scan? ⟨0, false, false⟩ (n + 1) ('(' :: cs) =
    (scan? ⟨1, true, false⟩ n cs).map (.symbol .openParen :: ·) := by
  show (token? 0 ('(' :: cs)).bind _ = _
  rw [token_open]
  rfl

/-- The tokens in what closes an expression. -/
theorem scan_paren {place : Place} {n : Nat} {us : List Token}
    (h : scan? place n [')'] = some us) : solid us = [.symbol .closeParen] := by
  cases n with
  | zero => cases h
  | succ n =>
    change (token? place.depth [')']).bind _ = _ at h
    obtain ⟨⟨t, k, e⟩, ht, h⟩ := Option.bind_eq_some_iff.mp h
    obtain ⟨rfl, rfl⟩ := token_paren ht
    change (if _ then none else _) = _ at h
    split at h
    · cases h
    · obtain ⟨ts, hts, rfl⟩ := Option.map_eq_some_iff.mp h
      cases n with
      | zero => cases hts
      | succ n =>
        cases hts
        rfl

/-- A line break is passed, and it leaves at most a line end. -/
theorem scan_line {place : Place} {n : Nat} {cs : List Char} {us : List Token}
    (h : scan? place n ('\n' :: cs) = some us) :
    ∃ place' m us', n = m + 1 ∧ scan? place' m cs = some us' ∧ solid us = solid us' := by
  cases n with
  | zero => cases h
  | succ n =>
    change (if _ then (scan? _ n cs).map _ else scan? _ n cs) = _ at h
    split at h
    · obtain ⟨ts, hts, rfl⟩ := Option.map_eq_some_iff.mp h
      exact ⟨_, n, ts, rfl, hts, rfl⟩
    · exact ⟨_, n, us, rfl, h, rfl⟩

theorem scan_closing (hz : Closing z) {place : Place} {n : Nat} {us : List Token}
    (h : scan? place n z = some us) : solid us = [.symbol .closeParen] := by
  cases hz with
  | line =>
    obtain ⟨_, _, us', -, h', hus⟩ := scan_line h
    rw [hus]
    exact scan_paren h'
  | paren => exact scan_paren h

/-- Where a comment cannot take a closing parenthesis in: the last line of the text is ended. -/
def Tail (cs z : List Char) : Prop :=
  z = [')'] → ∀ c ∈ cs.getLast?, c = '\n'

theorem Tail.suffix {cs cs' : List Char} (h : Tail cs z) (hcs : cs' <:+ cs) : Tail cs' z := by
  intro hz c hc
  obtain ⟨p, rfl⟩ := hcs
  refine h hz c ?_
  rw [List.getLast?_append, hc]
  rfl

/-- A comment ends before what closes the expression. -/
theorem dropWhile_before (hz : Closing z) {c : Char} {cs : List Char} (hc : c ≠ '\n')
    (h : Tail (c :: cs) z) :
    (cs ++ z).dropWhile (· != '\n') = cs.dropWhile (· != '\n') ++ z := by
  rw [List.dropWhile_append]
  split
  · next hempty =>
    rw [List.isEmpty_iff] at hempty
    rw [hempty]
    -- a comment without a newline goes on to the end, where a closing line stops it
    cases hz with
    | line => rfl
    | paren =>
      have hno : ∀ d ∈ cs, d ≠ '\n' := by
        intro d hd
        have := List.dropWhile_eq_nil_iff.mp hempty d hd
        simpa using this
      have hlast := h rfl _ (List.getLast?_eq_some_getLast (List.cons_ne_nil c cs))
      rcases List.mem_cons.mp (List.getLast_mem (List.cons_ne_nil c cs)) with hm | hm
      · exact absurd (hm.symm.trans hlast) hc
      · exact absurd hlast (hno _ hm)
  · rfl

theorem nextLine_before (z : List Char) {cs more : List Char} (h : nextLine? cs = some more) :
    nextLine? (cs ++ z) = some (more ++ z) ∧ more <:+ cs := by
  unfold nextLine? at h
  split at h
  · cases h
    exact ⟨rfl, List.suffix_cons _ _⟩
  · cases h

/-- **Closing an expression adds a parenthesis to its tokens**, and moves line ends only. -/
theorem scan_before (hz : Closing z) {place place' : Place} {n n' : Nat} {cs : List Char}
    {ts us : List Token} (hcs : Tail cs z) (h : scan? place n cs = some ts)
    (h' : scan? place' n' (cs ++ z) = some us) : solid us = solid ts ++ [.symbol .closeParen] := by
  induction n generalizing place place' n' cs ts us with
  | zero => cases h
  | succ n ih =>
    cases cs with
    | nil =>
      cases h
      exact scan_closing hz h'
    | cons c cs =>
      have htail : Tail cs z := hcs.suffix (List.suffix_cons c cs)
      -- a newline counts as a line end or not by the depth, which does not matter to the other
      -- tokens
      by_cases hline : c = '\n'
      · subst hline
        obtain ⟨_, _, ts', hn, h, hts⟩ := scan_line h
        obtain ⟨_, _, us', -, h', hus⟩ := scan_line h'
        cases hn
        rw [hts, hus]
        exact ih htail h h'
      cases n' with
      | zero => cases h'
      | succ n' =>
        rw [List.cons_append, scan?] at h'
        rw [scan?] at h
        split at h
        · next hblank =>
          rw [if_pos hblank] at h'
          exact ih htail h h'
        next hblank =>
        rw [if_neg hblank] at h'
        split at h
        · next hcomment =>
          rw [if_pos hcomment, dropWhile_before hz hline hcs] at h'
          exact ih (htail.suffix (List.dropWhile_suffix _)) h h'
        next hcomment =>
        have hbreak : ¬ (c == '\n') = true := by simpa using hline
        rw [if_neg hbreak] at h
        rw [if_neg hcomment, if_neg hbreak] at h'
        split at h
        · next hjoin =>
          rw [if_pos hjoin] at h'
          obtain ⟨more, hmore, h⟩ := Option.bind_eq_some_iff.mp h
          obtain ⟨hmore', hsuffix⟩ := nextLine_before z hmore
          rw [hmore'] at h'
          exact ih (htail.suffix hsuffix) h h'
        next hjoin =>
        rw [if_neg hjoin] at h'
        obtain ⟨⟨t, k, e⟩, ht, h⟩ := Option.bind_eq_some_iff.mp h
        obtain ⟨⟨t', k', e'⟩, ht', h'⟩ := Option.bind_eq_some_iff.mp h'
        obtain ⟨hk, rfl, rfl⟩ := token_before hz ht ht'
        change (if _ then none else _) = _ at h
        change (if _ then none else _) = _ at h'
        split at h
        · cases h
        split at h'
        · cases h'
        obtain ⟨ts', hts, rfl⟩ := Option.map_eq_some_iff.mp h
        obtain ⟨us', hus, rfl⟩ := Option.map_eq_some_iff.mp h'
        rw [← List.cons_append, drop_before hk] at hus
        have hrest := ih (hcs.suffix (List.drop_suffix _ _)) hts hus
        show solid ([t'] ++ us') = solid ([t'] ++ ts') ++ _
        rw [solid_append, solid_append, hrest, List.append_assoc]

/-! ## Line breaks -/

/-- The line break behind an expression may join with the last character of it. -/
theorem unifyLines_closing (cs : List Char) :
    ∃ z, unifyLines (cs ++ ['\n', ')']) = unifyLines cs ++ z ∧ Closing z ∧
      (z = [')'] → (unifyLines cs).getLast? = some '\n') := by
  have next {c : Char} {cs cs' : List Char}
      (h : ∃ z, cs' = cs ++ z ∧ Closing z ∧ (z = [')'] → cs.getLast? = some '\n')) :
      ∃ z, c :: cs' = c :: cs ++ z ∧ Closing z ∧ (z = [')'] → (c :: cs).getLast? = some '\n') := by
    obtain ⟨z, rfl, hz, hlast⟩ := h
    refine ⟨z, rfl, hz, fun hz => ?_⟩
    rw [List.getLast?_cons, hlast hz]
    rfl
  fun_induction unifyLines cs with
  | case1 => exact ⟨_, rfl, .line, nofun⟩
  | case2 rest ih => exact next ih
  | case3 rest hrest ih =>
    cases rest with
    | nil => exact ⟨[')'], rfl, .paren, fun _ => rfl⟩
    | cons d rest =>
      rw [List.cons_append, List.cons_append, unifyLines]
      · exact next ih
      · rintro _ ⟨⟩
        exact hrest _ rfl
  | case4 c rest hc₁ hc₂ ih =>
    rw [List.cons_append, unifyLines]
    · exact next ih
    · exact fun _ hc => absurd hc hc₂
    · exact hc₂

/-- **The tokens of an expression in parentheses** are its own, line ends aside. -/
theorem tokens_enclosed {cs : List Char} {ts us : List Token} (h : tokens? cs = some ts)
    (h' : tokens? ('(' :: cs ++ ['\n', ')']) = some us) :
    solid us = .symbol .openParen :: solid ts ++ [.symbol .closeParen] := by
  obtain ⟨z, hcs, hz, hlast⟩ := unifyLines_closing cs
  have htail : Tail (unifyLines cs) z := by
    intro hzp c hc
    rw [hlast hzp] at hc
    cases hc
    rfl
  have hopen : unifyLines ('(' :: cs ++ ['\n', ')']) = '(' :: (unifyLines cs ++ z) := by
    rw [← hcs]
    rfl
  rw [tokens?, hopen, List.length_cons, scan_open] at h'
  obtain ⟨us', hus, rfl⟩ := Option.map_eq_some_iff.mp h'
  show .symbol .openParen :: solid us' = _
  rw [scan_before hz htail h hus]
  rfl

/-! ## What no expression begins with -/

theorem program_slash {s : Symbol} (h : s = .slash ∨ s = .slashSlash) (rest : List Token) :
    program.run (.symbol .openParen :: .symbol s :: rest) = none := by
  rcases h with rfl | rfl <;> rfl

set_option maxRecDepth 2000 in
theorem isIdentifierHead_slash : isIdentifierHead '/' = false := by decide

theorem symbol_slash {cs : List Char} {s : Symbol} {k : Nat}
    (h : symbol? ('/' :: cs) = some (s, k)) : s = .slash ∨ s = .slashSlash := by
  cases cs with
  | nil =>
    cases h
    exact .inl rfl
  | cons d cs =>
    by_cases hd : d = '/'
    · subst hd
      cases h
      exact .inr rfl
    · have hpair : pairSymbol? '/' d = none := by
        unfold pairSymbol?
        split <;> simp_all
      rw [symbol?, hpair] at h
      cases h
      exact .inl rfl

theorem token_slash {d e k : Nat} {cs : List Char} {t : Token}
    (h : token? d ('/' :: cs) = some (t, k, e)) :
    ∃ s, t = .symbol s ∧ (s = .slash ∨ s = .slashSlash) := by
  rw [token?, if_neg (by rw [isIdentifierHead_slash]; nofun)] at h
  change (symbol? ('/' :: cs)).bind _ = _ at h
  obtain ⟨⟨s, l⟩, hs, h⟩ := Option.bind_eq_some_iff.mp h
  change (if _ then none else some _) = _ at h
  split at h
  · cases h
  · cases h
    exact ⟨s, rfl, symbol_slash hs⟩

/-- The first token of a text that begins with a slash in parentheses. -/
theorem scan_slash {n : Nat} {cs : List Char} {ts : List Token}
    (h : scan? ⟨1, true, false⟩ n ('/' :: cs) = some ts) :
    ∃ s us, (s = .slash ∨ s = .slashSlash) ∧ ts = .symbol s :: us := by
  cases n with
  | zero => cases h
  | succ n =>
    change (token? 1 ('/' :: cs)).bind _ = _ at h
    obtain ⟨⟨t, k, e⟩, ht, h⟩ := Option.bind_eq_some_iff.mp h
    obtain ⟨us, -, rfl⟩ := Option.map_eq_some_iff.mp h
    obtain ⟨s, rfl, hs⟩ := token_slash ht
    exact ⟨s, us, hs, rfl⟩

/-- In parentheses a text that begins with a slash is no expression. -/
theorem read_slash (rest : List Char) : read? ('(' :: '/' :: rest) = none := by
  have hopen : unifyLines ('(' :: '/' :: rest) = '(' :: '/' :: unifyLines rest := rfl
  rw [read?, tokens?, hopen, List.length_cons, scan_open]
  cases hscan : scan? ⟨1, true, false⟩ _ ('/' :: unifyLines rest) with
  | none => rfl
  | some ts =>
    obtain ⟨s, us, hs, rfl⟩ := scan_slash hscan
    exact congrArg (Option.map (·.1)) (program_slash hs us)

end Stencil.Term
