import Stencil.Proofs.Agreement.Maud
import Stencil.Proofs.Agreement.ReadsOnly
import Stencil.Proofs.Agreement.Rsx

/-!
# Quoted texts

A text in double quotes can be spelled in many ways (`SpellsText`). The scanner that finds its end
and the decoder that drops its quotes are written apart, and each goes through backslashes by
itself. **They agree on every literal** (`reads_quotedText`): whatever follows, the scanner stops at
the closing quote of the spelling, the decoder gives the text that was spelled, and nothing else is
taken for a literal. So a literal has one reading.

The scanner and the decoder are followed along the spelling, one character of the text after the
other (`quotedRest_spelled`, `decodeSpelling_spelled`), and back (`exists_spelled`).
-/

namespace Stencil.Source

open Matcher Text

/-- A spelling between double quotes. -/
def enclose (spelling : List Char) : List Char :=
  '"' :: (spelling ++ ['"'])

/-- The rule for quoted texts. -/
def quotedRule : Matcher Lexeme :=
  token .quotedText quotedText

variable {s t : List Char} (inside : Matcher (List Surface))

theorem quoted_eq : quoted = (do return .quoted (← quotedRule)) := rfl

/-- The rule takes a spelling with its quotes, and it is decoded to the text. -/
theorem takes_quotedRule (h : SpellsText s t) (r : List Char) :
    quotedRule.Takes (enclose t) r fun l => l.chars = enclose t ∧ unquote l.chars = s := by
  refine (Takes.token (quotedText_spelled h r)).mono fun l hl => ⟨hl, ?_⟩
  rw [hl]
  exact unquote_spelled h

theorem takes_quoted (h : SpellsText s t) (r : List Char) :
    quoted.Takes (enclose t) r fun found =>
      ∃ l, found = .quoted l ∧ l.chars = enclose t ∧ l.decoded = String.ofList s := by
  rw [quoted_eq]
  refine (takes_quotedRule h r).map fun l hl => ⟨l, rfl, hl.1, ?_⟩
  rw [Lexeme.decoded, hl.2]

/-- Where a node may stand in tags, a literal is nothing but a text. -/
theorem rsx_takes_quoted (h : SpellsText s t) (r : List Char) :
    (Rsx.node inside).Takes (enclose t) r fun found =>
      ∃ l, found = .quoted l ∧ l.chars = enclose t ∧ l.decoded = String.ofList s := by
  refine Rsx.takes_last (c := '"') (by simp [Rsx.IsMark]) (by decide) rfl ?_
  refine Refuses.firstOf (Rsx.refuses_element (by decide) _)
    (Refuses.firstOf ?_ (Takes.firstOf (takes_quoted h r)))
  exact Refuses.named _ (Refuses.offset fun _ => (Rsx.refuses_braced (by decide) _).bind)

/-- Where a node may stand in blocks, a literal is nothing but a text. -/
theorem maud_takes_quoted (h : SpellsText s t) (r : List Char) :
    (Maud.node inside).Takes (enclose t) r fun found =>
      ∃ l, found = .quoted l ∧ l.chars = enclose t ∧ l.decoded = String.ofList s := by
  refine Maud.takes_later (c := '"') (by decide) (by decide) rfl ?_
  exact Refuses.firstOf (Maud.refuses_spliceText (by decide) _) (Takes.firstOf (takes_quoted h r))

/-- What stands in front of a closing quote spells a text. -/
theorem exists_spelled {text : List Char} {n : Nat} (h : quotedRest '"' true text = some n) :
    ∃ s t r, text = t ++ '"' :: r ∧ n = t.length + 1 ∧ SpellsText s t := by
  fun_induction quotedRest '"' true text generalizing n with
  | case1 => cases h
  | case2 c rest hline => cases h
  | case3 c rest hline ih =>
    obtain ⟨m, hm, rfl⟩ := Option.map_eq_some_iff.mp h
    obtain ⟨s, t, r, rfl, rfl, hspelled⟩ := ih hm
    -- any character but a newline may follow a backslash; two of them stand for others then
    have hc : ∃ d, SpellsChar d ['\\', c] := by
      by_cases hn : c = 'n'
      · exact ⟨'\n', hn ▸ .newline⟩
      by_cases ht : c = 't'
      · exact ⟨'\t', ht ▸ .tab⟩
      · exact ⟨c, .escaped (by simpa using hline) hn ht⟩
    obtain ⟨d, hd⟩ := hc
    exact ⟨d :: s, ['\\', c] ++ t, r, rfl, rfl, .cons hd hspelled⟩
  | case4 c rest hback hquote =>
    cases h
    exact ⟨[], [], rest, by rw [List.nil_append, beq_iff_eq.mp hquote], rfl, .nil⟩
  | case5 c rest hback hquote hstop => cases h
  | case6 c rest hback hquote hstop ih =>
    obtain ⟨m, hm, rfl⟩ := Option.map_eq_some_iff.mp h
    obtain ⟨s, t, r, rfl, rfl, hspelled⟩ := ih hm
    have hplain : SpellsChar c [c] := .plain (by simpa using hquote) (by simpa using hstop)
    exact ⟨c :: s, [c] ++ t, r, rfl, rfl, .cons hplain hspelled⟩

/-- What the rule takes for a literal is a spelling with its quotes. -/
theorem quotedText_eq_some {text : List Char} {n : Nat} (h : quotedText text = some n) :
    ∃ s t, SpellsText s t ∧ text.take n = enclose t := by
  unfold quotedText at h
  split at h
  · obtain ⟨m, hm, rfl⟩ := Option.map_eq_some_iff.mp h
    obtain ⟨s, t, r, rfl, rfl, hspelled⟩ := exists_spelled hm
    refine ⟨s, t, hspelled, ?_⟩
    rw [List.take_succ_cons, List.take_length_add_append]
    rfl
  · cases h

/-- **A quoted text is read in one way, however it is spelled.** Take any spelling of a text between
double quotes, and anything behind it. In both dialects, the rule for quoted texts takes exactly the
spelling with its quotes and leaves what is behind, where a node may stand it is the rule that is
chosen, and decoding gives the text. The other way round, what the rule takes is always such a
spelling with its quotes, of the text that it is decoded to and of no other. -/
theorem reads_quotedText :
    (∀ {s t : List Char}, SpellsText s t → ∀ r,
      quotedRule.Takes (enclose t) r (fun l => l.chars = enclose t ∧ unquote l.chars = s) ∧
      ∀ inside, ∀ node ∈ [Rsx.node inside, Maud.node inside],
        node.Takes (enclose t) r fun found =>
          ∃ l, found = .quoted l ∧ l.chars = enclose t ∧ l.decoded = String.ofList s) ∧
    ∀ {c c' : Cursor} {l : Lexeme}, (quotedRule c).result = some (l, c') →
      c.rest = l.chars ++ c'.rest ∧
      ∃ t, l.chars = enclose t ∧ SpellsText (unquote l.chars) t ∧
        ∀ s, SpellsText s t → s = unquote l.chars := by
  refine ⟨fun h r => ⟨takes_quotedRule h r, fun inside => ?_⟩, fun {c c' l} hresult => ?_⟩
  · exact List.forall_mem_cons.mpr ⟨rsx_takes_quoted inside h r,
      List.forall_mem_singleton.mpr (maud_takes_quoted inside h r)⟩
  · rw [quotedRule, token, result_named, result_scan] at hresult
    obtain ⟨n, hn, hpair⟩ := Option.map_eq_some_iff.mp hresult
    cases hpair
    obtain ⟨s, t, hspelled, htake⟩ := quotedText_eq_some hn
    have hdecoded : unquote (c.rest.take n) = s := by
      rw [htake]
      exact unquote_spelled hspelled
    refine ⟨(List.take_append_drop n c.rest).symm, t, htake, ?_, fun u hu => ?_⟩
    · rw [hdecoded]
      exact hspelled
    · rw [hdecoded, ← decodeSpelling_spelled hu, decodeSpelling_spelled hspelled]

/-- A backslash, a quote, a letter and a newline, spelled with a backslash as often as not. -/
theorem reads_quotedText_escapes :
    SpellsText ['\\', '"', 'a', '\n'] ['\\', '\\', '\\', '"', '\\', 'a', '\\', 'n'] ∧
    quotedRule.Takes (enclose ['\\', '\\', '\\', '"', '\\', 'a', '\\', 'n']) ['"', '"']
      (fun l => unquote l.chars = ['\\', '"', 'a', '\n']) ∧
    ∃ l c', (quotedRule ⟨0, ['"', '\\', 'n', '"', 'x']⟩).result = some (l, c') ∧
      c'.rest = ['x'] ∧ SpellsText (unquote l.chars) ['\\', 'n'] := by
  have h : SpellsText ['\\', '"', 'a', '\n'] ['\\', '\\', '\\', '"', '\\', 'a', '\\', 'n'] :=
    .cons (.escaped (by decide) (by decide) (by decide))
      (.cons (.escaped (by decide) (by decide) (by decide))
        (.cons (.escaped (by decide) (by decide) (by decide)) (.cons .newline .nil)))
  have hresult : (quotedRule ⟨0, ['"', '\\', 'n', '"', 'x']⟩).result =
      some (⟨0, ['"', '\\', 'n', '"']⟩, ⟨4, ['x']⟩) := rfl
  refine ⟨h, (reads_quotedText.1 h _).1.mono fun _ hl => hl.2, _, _, hresult, rfl, ?_⟩
  obtain ⟨-, t, ht, hspelled, -⟩ := reads_quotedText.2 hresult
  obtain rfl : t = ['\\', 'n'] := by
    have hmiddle : ['\\', 'n', '"'] = t ++ ['"'] := (List.cons.inj ht).2
    exact (List.append_inj_left' (by exact hmiddle) rfl).symm
  exact hspelled

end Stencil.Source
