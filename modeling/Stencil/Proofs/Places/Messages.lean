import Stencil.Proofs.Places.Depth
import Stencil.Proofs.Shape.Read

/-!
# Where and why a source is refused

An error of reading is about an offset of the source, and its place is the location of the offset.
If the grammar failed there, the message ends with what is found: the end of the template, the end
of the line, or the beginning of what is left of the line.
-/

namespace Stencil

/-! ## What is found -/

theorem Text.quoteFor_cases (text : List Char) : quoteFor text = '"' ∨ quoteFor text = '\'' := by
  unfold quoteFor
  split
  · exact .inl rfl
  · exact .inr rfl

namespace Found

/-- The words at the end of a message about the end of the template. -/
def templateWords : List Char := "found end of template".toList

/-- The words at the end of a message about the end of a line. -/
def lineWords : List Char := "found end of line".toList

theorem phrase_text (start : String) :
    ∃ body quote, (quote = '"' ∨ quote = '\'') ∧
      (Found.text start).phrase.toList = body ++ [quote] := by
  let quote := Text.quoteFor start.toList
  refine ⟨quote :: start.toList.flatMap (Text.shownChar quote), quote,
    Text.quoteFor_cases start.toList, ?_⟩
  rw [phrase, Text.shown, String.toList_ofList, Text.shownChars]

/-- A message that ends with a quote ends in no other way. -/
theorem not_suffix_of_quote {words body : List Char} {quote : Char}
    (hquote : quote = '"' ∨ quote = '\'') (hdouble : words.getLast? ≠ some '"')
    (hsingle : words.getLast? ≠ some '\'') (hne : words ≠ []) : ¬ words <:+ body ++ [quote] := by
  rintro ⟨front, h⟩
  have hlast : words.getLast? = some quote := by
    have hall := congrArg List.getLast? h
    rwa [List.getLast?_append_of_ne_nil _ hne, List.getLast?_concat] at hall
  rcases hquote with rfl | rfl
  · exact hdouble hlast
  · exact hsingle hlast

variable (before : List Char) (found : Found)

theorem templateWords_suffix :
    templateWords <:+ before ++ "found ".toList ++ found.phrase.toList ↔
      found = .endOfTemplate := by
  cases found with
  | endOfTemplate =>
    refine iff_of_true ⟨before, ?_⟩ rfl
    rw [List.append_assoc]
    rfl
  | endOfLine =>
    refine iff_of_false (fun h => ?_) nofun
    have hline : lineWords <:+ before ++ "found ".toList ++ Found.endOfLine.phrase.toList :=
      ⟨before, by rw [List.append_assoc]; rfl⟩
    have hboth : lineWords <:+ templateWords := List.suffix_of_suffix_length_le hline h (by decide)
    exact absurd hboth (by decide)
  | text start =>
    refine iff_of_false (fun h => ?_) nofun
    obtain ⟨body, quote, hquote, hphrase⟩ := phrase_text start
    rw [hphrase, ← List.append_assoc] at h
    exact not_suffix_of_quote hquote (by decide) (by decide) (by decide) h

theorem lineWords_suffix :
    lineWords <:+ before ++ "found ".toList ++ found.phrase.toList ↔ found = .endOfLine := by
  cases found with
  | endOfTemplate =>
    refine iff_of_false (fun h => ?_) nofun
    have htemplate : templateWords <:+
        before ++ "found ".toList ++ Found.endOfTemplate.phrase.toList :=
      ⟨before, by rw [List.append_assoc]; rfl⟩
    have hboth : lineWords <:+ templateWords :=
      List.suffix_of_suffix_length_le h htemplate (by decide)
    exact absurd hboth (by decide)
  | endOfLine =>
    refine iff_of_true ⟨before, ?_⟩ rfl
    rw [List.append_assoc]
    rfl
  | text start =>
    refine iff_of_false (fun h => ?_) nofun
    obtain ⟨body, quote, hquote, hphrase⟩ := phrase_text start
    rw [hphrase, ← List.append_assoc] at h
    exact not_suffix_of_quote hquote (by decide) (by decide) (by decide) h

theorem ofRest_eq_endOfTemplate {rest : List Char} : ofRest rest = .endOfTemplate ↔ rest = [] := by
  unfold ofRest
  split
  · simp
  · simp
  · next hnil _ => exact iff_of_false nofun hnil

theorem ofRest_eq_endOfLine {rest : List Char} :
    ofRest rest = .endOfLine ↔ rest.head? = some '\n' := by
  unfold ofRest
  split
  · simp
  · simp
  · next hnil hline =>
    refine iff_of_false nofun fun h => ?_
    cases rest with
    | nil => exact hnil rfl
    | cons c rest =>
      cases h
      exact hline rest rfl

theorem ofRest_of_line {rest : List Char} (hne : rest ≠ []) (hline : rest.head? ≠ some '\n') :
    ofRest rest = .text (String.ofList ((rest.takeWhile (· != '\n')).take 20)) := by
  unfold ofRest
  split
  · exact absurd rfl hne
  · exact absurd rfl hline
  · rfl

end Found

/-! ## Errors -/

theorem SourceCause.description_unexpected (rule : Source.Rule) (found : Found)
    (dialect : Dialect) : (SourceCause.unexpected rule found dialect).description =
      "expected " ++ rule.phrase ++ ", found " ++ found.phrase := by
  -- the phrases are long lists of cases, which nothing here has to look into
  generalize hrule : rule.phrase = expected
  generalize hfound : found.phrase = words
  unfold description
  dsimp only
  rw [hrule, hfound]
  rfl

/-- The characters of a description are those in front of the last phrase and those of the phrase.
-/
theorem SourceCause.description_chars (rule : Source.Rule) (found : Found) (dialect : Dialect) :
    ∃ before, (SourceCause.unexpected rule found dialect).description.toList =
      before ++ "found ".toList ++ found.phrase.toList := by
  rw [description_unexpected]
  generalize rule.phrase = expected, found.phrase = words
  refine ⟨("expected " ++ expected ++ ", ").toList, ?_⟩
  rw [← String.toList_append, ← String.toList_append, String.append_assoc, String.append_assoc,
    String.append_assoc, String.append_assoc, String.append_assoc]
  rfl

/-- **A source is read or refused at a place in it**, however deep it nests. The error is about an
offset of the source, which may be its end, and its place is the location of that offset. If it is
the grammar that failed, the description ends with what stands at the offset. -/
theorem Source.read_or_located (dialect : Dialect) (source : String) :
    (∀ depth > source.toList.length, grammar dialect depth ⟨0, source.toList⟩ =
        grammar dialect (source.toList.length + 1) ⟨0, source.toList⟩) ∧
      ((∃ nodes, Source.read dialect source = .ok nodes) ∨
        ∃ e offset, Source.read dialect source = .error e ∧ offset ≤ source.toList.length ∧
          e.place = some (Location.ofOffset source.toList offset) ∧
          ∀ rule found d, e.cause = .unexpected rule found d →
            (Found.templateWords <:+ e.cause.description.toList ↔ offset = source.toList.length) ∧
            (Found.lineWords <:+ e.cause.description.toList ↔ source.toList[offset]? = some '\n') ∧
            (offset < source.toList.length → source.toList[offset]? ≠ some '\n' →
              found = .text (String.ofList
                (((source.toList.drop offset).takeWhile (· != '\n')).take 20)) ∧
              e.cause.description =
                "expected " ++ rule.phrase ++ ", found " ++ found.phrase)) := by
  refine ⟨fun depth h => grammar_depth dialect h, ?_⟩
  have hlands := Source.lands_readChars dialect source.toList
  rcases hread : Source.read dialect source with e | nodes
  · right
    obtain ⟨offset, hle, habout⟩ := hlands.2 e hread
    refine ⟨e, offset, rfl, hle, habout.place_eq, fun rule found d hcause => ?_⟩
    have hfound := habout.found_eq rule found d hcause
    -- what is found is said by what is left of the source, which is empty at the end only
    have hend : source.toList.drop offset = [] ↔ offset = source.toList.length := by
      rw [List.drop_eq_nil_iff]
      omega
    have hdescription := SourceCause.description_unexpected rule found d
    obtain ⟨before, hchars⟩ := SourceCause.description_chars rule found d
    rw [← hcause] at hdescription hchars
    rw [hchars, Found.templateWords_suffix, Found.lineWords_suffix]
    refine ⟨?_, ?_, fun hlt hline => ⟨?_, hdescription⟩⟩
    · rw [hfound, Found.ofRest_eq_endOfTemplate, hend]
    · rw [hfound, Found.ofRest_eq_endOfLine, List.head?_drop]
    rw [hfound]
    refine Found.ofRest_of_line (fun hnil => ?_) (by rwa [List.head?_drop])
    exact absurd (hend.mp hnil) (Nat.ne_of_lt hlt)
  · exact .inl ⟨nodes, rfl⟩

end Stencil
