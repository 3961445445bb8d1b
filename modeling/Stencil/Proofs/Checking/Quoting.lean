import Stencil.Proofs.Checking.Valid
import Stencil.Proofs.Reading.Spelled
import Stencil.Source.Read

/-!
# Strings with quotes in them

An attribute should not be given as an expression that is a string with quotes in it. What is
reported goes by the source of the expression: it has to be a string literal, in any form, with a
quote between its first and its last character. The literal is cut into its pieces here, and each
piece into its delimiters and what is inside.

A literal with a quote inside one of its pieces is always reported. A literal without one is
reported as well if it is more than one piece between two quotes: if it has parentheses, a prefix,
three quotes on each side, several pieces or a comment. **Nothing else is reported**
(`violations_quoting`).
-/

namespace Stencil

open Term Schema

namespace Expr

/-- The tokens of an expression in parentheses, as it is read, with their texts. -/
def tokens (e : Expr) : List Spelled :=
  let text := unifyLines (codeText e.source)
  (spelled? ⟨0, false, false⟩ (text.length + 1) text).getD []

/-- Whether an expression is a string literal: strings one after the other, in any number of
parentheses. -/
def IsQuotation (e : Expr) : Prop :=
  Quotation (solid (e.tokens.map Spelled.token))

/-- The texts between the delimiters of the strings of an expression. -/
def pieces (e : Expr) : List (List Char) :=
  (strings e.tokens).map fun l => inside l.text

/-- Whether a piece of an expression has a quote inside its delimiters. -/
def HoldsQuote (e : Expr) : Prop :=
  ∃ piece ∈ e.pieces, piece.any isQuote = true

/-- Whether an expression is one piece between two quotes, and nothing else. -/
def IsPlain (e : Expr) : Prop :=
  ∃ quote body, isQuote quote = true ∧ e.source.toList = quote :: (body ++ [quote]) ∧
    e.pieces = [unifyLines body]

/-- Whether an expression is refused as the value of an attribute: a string literal that has a quote
inside a piece, or that is written in another way than as one piece between two quotes. -/
def IsRefused (e : Expr) : Prop :=
  e.IsQuotation ∧ (e.HoldsQuote ∨ ¬ e.IsPlain)

variable {e : Expr}

/-! ## The tokens of an expression -/

theorem spelled_tokens (e : Expr) :
    ∃ n, spelled? ⟨0, false, false⟩ n (unifyLines (codeText e.source)) = some e.tokens ∧
      tokens? (codeText e.source) = some (e.tokens.map Spelled.token) := by
  obtain ⟨ts, hts, -⟩ := Option.bind_eq_some_iff.mp e.reads
  have hscan := hts
  rw [tokens?, scan_eq_spelled] at hscan
  obtain ⟨ls, hls, rfl⟩ := Option.map_eq_some_iff.mp hscan
  have htokens : e.tokens = ls := by
    rw [tokens, hls]
    rfl
  rw [htokens]
  exact ⟨_, hls, hts⟩

theorem isStringLiteral_iff : e.isStringLiteral = true ↔ e.IsQuotation := by
  obtain ⟨n, -, htokens⟩ := spelled_tokens e
  obtain ⟨ts, hts, hread⟩ := Option.bind_eq_some_iff.mp e.reads
  rw [htokens] at hts
  cases hts
  obtain ⟨⟨t, us⟩, hprogram, hcode⟩ := Option.map_eq_some_iff.mp hread
  rw [isStringLiteral, ← hcode]
  exact isString_program hprogram

theorem laidOut_tokens (e : Expr) : LaidOut (unifyLines (codeText e.source)) e.tokens := by
  obtain ⟨n, hspelled, -⟩ := spelled_tokens e
  exact laidOut_spelled hspelled

theorem quotes_codeText (source : String) :
    quotes (unifyLines (codeText source)) = quotes source.toList := by
  rw [quotes_unifyLines, codeText, List.cons_append, quotes_cons, quotes_append]
  simp [quotes, isQuote]

/-! ## Quotes in the source -/

theorem quotes_char_le (c : Char) : quotes [c] ≤ 1 :=
  List.countP_le_length

theorem isQuote_of_quotes {c : Char} (h : quotes [c] ≠ 0) : isQuote c = true := by
  by_contra hc
  exact h (quotes_eq_zero.mpr (by simpa using hc))

/-- A source has one quote at most, or a first and a last character that are not the same one. -/
theorem source_cases (e : Expr) :
    quotes e.source.toList ≤ 1 ∨ ∃ c d, e.source.toList = c :: (e.inner ++ [d]) := by
  unfold inner
  cases e.source.toList with
  | nil => exact .inl (Nat.zero_le _)
  | cons c rest =>
    rcases List.eq_nil_or_concat rest with rfl | ⟨body, d, rfl⟩
    · exact .inl (quotes_char_le c)
    · refine .inr ⟨c, d, ?_⟩
      rw [List.drop_one, List.tail_cons, List.concat_eq_append, List.dropLast_concat]

theorem quotes_source {c d : Char} (h : e.source.toList = c :: (e.inner ++ [d])) :
    quotes e.source.toList = quotes [c] + quotes e.inner + quotes [d] := by
  rw [h, quotes_cons, quotes_append, Nat.add_assoc]

/-- All quotes of a source but two are between its first and its last character. -/
theorem quotes_source_le (e : Expr) : quotes e.source.toList ≤ quotes e.inner + 2 := by
  rcases e.source_cases with h | ⟨c, d, h⟩
  · omega
  · have hc := quotes_char_le c
    have hd := quotes_char_le d
    rw [quotes_source h]
    omega

/-- A source with two quotes of which none is between its first and its last character begins and
ends with a quote. -/
theorem exists_ends (hinner : quotes e.inner = 0) (htwo : 2 ≤ quotes e.source.toList) :
    ∃ c d, isQuote c = true ∧ isQuote d = true ∧ e.source.toList = c :: (e.inner ++ [d]) := by
  rcases e.source_cases with h | ⟨c, d, h⟩
  · omega
  · have hc := quotes_char_le c
    have hd := quotes_char_le d
    rw [quotes_source h] at htwo
    exact ⟨c, d, isQuote_of_quotes (by omega), isQuote_of_quotes (by omega), h⟩

/-- The delimiters of a piece and the quotes inside are quotes of the source. -/
theorem quotes_piece_le {l : Spelled} (hl : l ∈ strings e.tokens) :
    2 * quoteWidth l.text + quotes (inside l.text) ≤ quotes e.source.toList := by
  obtain ⟨hquotes, before, after, htext⟩ := (laidOut_tokens e).exists_string hl
  rw [← quotes_codeText, htext, quotes_append, quotes_append, hquotes.quotes_eq]
  omega

/-! ## What is refused -/

theorem holdsQuote_iff :
    e.HoldsQuote ↔ ∃ l ∈ strings e.tokens, quotes (inside l.text) ≠ 0 := by
  simp only [HoldsQuote, pieces, List.mem_map, exists_exists_and_eq_and, any_isQuote]

/-- A quote inside a piece is between the first and the last character of the source. -/
theorem any_inner_of_holdsQuote (h : e.HoldsQuote) : e.inner.any isQuote = true := by
  obtain ⟨l, hl, hquote⟩ := holdsQuote_iff.mp h
  have hpiece := quotes_piece_le hl
  have hwidth := quoteWidth_pos l.text
  have hsource := e.quotes_source_le
  rw [any_isQuote]
  omega

/-- In a plain literal there is nothing but its one piece between the first and the last character
of the source. -/
theorem not_any_inner_of_isPlain (hplain : e.IsPlain) (h : ¬ e.HoldsQuote) :
    ¬ e.inner.any isQuote = true := by
  obtain ⟨quote, body, -, hsource, hpieces⟩ := hplain
  have hinner : e.inner = body := by
    rw [inner, hsource, List.drop_one, List.tail_cons, List.dropLast_concat]
  intro hany
  rw [hinner, any_isQuote, ← quotes_unifyLines, ← any_isQuote] at hany
  exact h ⟨_, by rw [hpieces]; exact List.mem_singleton_self _, hany⟩

/-- A string literal without a quote between the first and the last character of its source is
plain: there are two quotes, which stand at the ends and are those of its one string. -/
theorem isPlain_of_inner (hquotation : e.IsQuotation) (hinner : quotes e.inner = 0) :
    e.IsPlain := by
  have hlaid := laidOut_tokens e
  have hsource := e.quotes_source_le
  obtain ⟨l, hl⟩ : ∃ l, l ∈ strings e.tokens := by
    obtain ⟨t, ht, hstring⟩ := Quotation.exists_string hquotation
    obtain ⟨l, hl, rfl⟩ := List.mem_map.mp (List.mem_of_mem_filter ht)
    exact ⟨l, List.mem_filter.mpr ⟨hl, hstring⟩⟩
  -- each string takes two quotes and the source has two, so there is one string
  have hone : strings e.tokens = [l] := by
    have hle := hlaid.strings_le
    rw [quotes_codeText] at hle
    have hpos := List.length_pos_of_mem hl
    obtain ⟨m, hm⟩ := List.length_eq_one_iff.mp
      (show (strings e.tokens).length = 1 by omega)
    rw [hm] at hl ⊢
    rw [List.mem_singleton.mp hl]
  have hpiece := quotes_piece_le hl
  have hpositive := quoteWidth_pos l.text
  obtain ⟨c, d, hc, hd, hends⟩ := exists_ends hinner (by omega)
  obtain ⟨hquotes, before, after, hwhole⟩ := hlaid.exists_string hl
  have hsplit : unifyLines (codeText e.source) =
      ['('] ++ c :: (unifyLines e.inner ++ d :: unifyLines ['\n', ')']) := by
    have htext : codeText e.source = ['('] ++ c :: (e.inner ++ d :: ['\n', ')']) := by
      rw [codeText, hends]
      simp
    rw [htext, unifyLines_quote hc, unifyLines_quote hd]
    rfl
  have htwo : quotes (unifyLines (codeText e.source)) ≤ 2 := by
    rw [quotes_codeText]
    omega
  obtain ⟨rfl, hinside⟩ := hquotes.inside_eq hwhole htwo (by decide)
    ((quotes_unifyLines _).trans hinner) hc hd hsplit
  exact ⟨c, e.inner, hc, hends, by rw [pieces, hone, List.map_singleton, hinside]⟩

/-- What is reported is what is refused. -/
theorem isAmbiguous_iff : isAmbiguous e = true ↔ e.IsRefused := by
  have hambiguous : isAmbiguous e = (e.isStringLiteral && e.inner.any isQuote) := rfl
  rw [hambiguous, Bool.and_eq_true, isStringLiteral_iff, IsRefused]
  refine and_congr_right fun hquotation => ⟨fun hany => ?_, ?_⟩
  · by_contra hnone
    obtain ⟨hholds, hplain⟩ := not_or.mp hnone
    exact not_any_inner_of_isPlain (not_not.mp hplain) hholds hany
  · rintro (hholds | hplain)
    · exact any_inner_of_holdsQuote hholds
    · rw [any_isQuote]
      exact fun hinner => hplain (isPlain_of_inner hquotation hinner)

instance (e : Expr) : Decidable e.IsRefused :=
  decidable_of_iff _ isAmbiguous_iff

end Expr

/-! ## What is reported -/

/-- Whether a violation is about a string with quotes. -/
def Schema.Violation.isQuoting : Violation → Bool
  | .ambiguousQuoting .. => true
  | _ => false

namespace Schema.Registry

variable (r : Registry)

/-- The expressions that the attributes of a node show, each with its attribute. An element without
an entry has none that is looked at. -/
def inspectedIn : Node → List (Attribute × Expr)
  | .element tag attributes _ _ _ =>
    if r.has tag then attributes.flatMap fun a => (inspected a.value).map fun e => (a, e) else []
  | _ => []

/-- The report of an expression in an attribute. -/
def quoting (p : Attribute × Expr) : Violation :=
  .ambiguousQuoting p.1.name (p.2.place <|> p.1.place)

theorem filter_attributeViolations (entry : Entry) (element : String) (a : Attribute) :
    (r.attributeViolations entry element a).filter Violation.isQuoting =
      (((inspected a.value).map fun e => (a, e)).filter fun p => p.2.IsRefused).map quoting := by
  have hallowed : (if r.allows entry a.name then [] else
      [Violation.unknownAttribute a.name element a.place]).filter Violation.isQuoting = [] := by
    split <;> rfl
  rw [attributeViolations, List.filter_append, hallowed, List.nil_append, List.filter_eq_self.mpr,
    List.filter_map, List.map_map]
  · have hrefused (e : Expr) : isAmbiguous e = decide e.IsRefused := by
      rw [Bool.eq_iff_iff, decide_eq_true_iff]
      exact Expr.isAmbiguous_iff
    rw [List.filter_congr fun e _ => hrefused e]
    rfl
  · intro v hv
    obtain ⟨e, -, rfl⟩ := List.mem_map.mp hv
    rfl

theorem filter_nodeViolations (n : Node) :
    (r.nodeViolations n).filter Violation.isQuoting =
      ((r.inspectedIn n).filter fun p => p.2.IsRefused).map quoting := by
  cases n with
  | element tag attributes children void place =>
    rw [nodeViolations, inspectedIn, has]
    cases hentry : r.lookup tag with
    | none => rfl
    | some entry =>
      have hvoid : (if entry.isVoid && !children.isEmpty then
          [Violation.voidHasChildren tag place] else []).filter Violation.isQuoting = [] := by
        split <;> rfl
      dsimp only
      rw [List.filter_append, hvoid, List.nil_append, List.filter_flatMap,
        if_pos (Option.isSome_some), List.filter_flatMap, List.map_flatMap]
      exact List.flatMap_congr fun a _ => r.filter_attributeViolations entry tag a
  | _ =>
    rw [r.nodeViolations_of_no_element rfl]
    rfl

/-- **Quoting is reported for the literals that are refused and for nothing else.** The reports are
those of the expressions that the attributes of known elements show and that are refused, in their
order. So a literal that is one piece between two quotes is reported if and only if it has a quote
inside, a literal with a quote inside one of its pieces is reported in any form, and what is no
string literal never is. -/
theorem violations_quoting (nodes : List Node) :
    (r.violations nodes).filter Violation.isQuoting =
      (((walk nodes).flatMap r.inspectedIn).filter fun p => p.2.IsRefused).map fun p =>
        .ambiguousQuoting p.1.name (p.2.place <|> p.1.place) := by
  rw [violations, List.filter_flatMap, List.filter_flatMap, List.map_flatMap]
  exact List.flatMap_congr fun n _ => r.filter_nodeViolations n

/-- A literal in parentheses is reported without a quote in any of its pieces. -/
theorem violations_quoting_paren :
    ∃ nodes a e, Source.read .rsx "<p title=\x7b(\"plain\")\x7d>x</p>" = .ok nodes ∧
      (walk nodes).flatMap builtin.inspectedIn = [(a, e)] ∧ e.IsQuotation ∧ ¬ e.HoldsQuote ∧
      builtin.violations nodes = [.ambiguousQuoting "title" (some ⟨1, 11⟩)] := by
  have hpage : ((Source.read .rsx "<p title=\x7b(\"plain\")\x7d>x</p>").toOption.map fun nodes =>
      (builtin.violations nodes, ((walk nodes).flatMap builtin.inspectedIn).map fun p =>
        (p.2.isStringLiteral, p.2.pieces))) =
      some ([.ambiguousQuoting "title" (some ⟨1, 11⟩)], [(true, ["plain".toList])]) := by
    decide +kernel
  cases hread : Source.read .rsx "<p title=\x7b(\"plain\")\x7d>x</p>" with
  | error e =>
    rw [hread] at hpage
    cases hpage
  | ok nodes =>
    rw [hread] at hpage
    obtain ⟨hviolations, hinspected⟩ := Prod.mk.inj (Option.some.inj hpage)
    obtain ⟨⟨a, e⟩, hshown, hform⟩ := List.map_eq_singleton_iff.mp hinspected
    obtain ⟨hliteral, hpieces⟩ := Prod.mk.inj hform
    refine ⟨nodes, a, e, rfl, hshown, Expr.isStringLiteral_iff.mp hliteral, ?_, hviolations⟩
    rw [Expr.HoldsQuote, show e.pieces = _ from hpieces]
    decide

end Schema.Registry

end Stencil
