import Stencil.Proofs.Markup.Escape

/-!
# Escaping at once

The five replacements of an escape run over the whole text one after the other, and what one of them
writes has characters in it that the others look for. **It comes to the same as replacing every
character at once** (`escape_exact`): the ampersand is replaced first, and no other entity contains
a character that is replaced after it.

So an escape is made character by character, and it can be undone: a decoder that goes from left to
right (`decodeEntities`) finds the five entities where characters were replaced and nowhere else,
also in texts that had entities in them before.
-/

namespace Stencil

open Markup

namespace Text

/-- What stands in markup for a character. -/
def entityOf : Char → List Char
  | '&' => ['&', 'a', 'm', 'p', ';']
  | '<' => ['&', 'l', 't', ';']
  | '>' => ['&', 'g', 't', ';']
  | '"' => ['&', 'q', 'u', 'o', 't', ';']
  | '\'' => ['&', '#', 'x', '2', '7', ';']
  | c => [c]

/-- The text that markup shows: the five entities are decoded from left to right, and nothing
else. -/
def decodeEntities : List Char → List Char
  | '&' :: 'a' :: 'm' :: 'p' :: ';' :: rest => '&' :: decodeEntities rest
  | '&' :: 'l' :: 't' :: ';' :: rest => '<' :: decodeEntities rest
  | '&' :: 'g' :: 't' :: ';' :: rest => '>' :: decodeEntities rest
  | '&' :: 'q' :: 'u' :: 'o' :: 't' :: ';' :: rest => '"' :: decodeEntities rest
  | '&' :: '#' :: 'x' :: '2' :: '7' :: ';' :: rest => '\'' :: decodeEntities rest
  | c :: rest => c :: decodeEntities rest
  | [] => []

/-! ## One character at a time -/

theorem entityOf_plain {c : Char} (hc : c ∉ specials) : entityOf c = [c] := by
  simp only [specials, List.mem_cons, List.not_mem_nil, or_false, not_or] at hc
  unfold entityOf
  split <;> simp_all

theorem escapeChars_single (c : Char) : escapeChars [c] = entityOf c := by
  by_cases hc : c ∈ specials
  · simp only [specials, List.mem_cons, List.not_mem_nil, or_false] at hc
    rcases hc with rfl | rfl | rfl | rfl | rfl <;> rfl
  · rw [escapeChars_plain hc, entityOf_plain hc]

/-- The five replacements in a row are one replacement of every character. -/
theorem escapeChars_eq_flatMap (text : List Char) : escapeChars text = text.flatMap entityOf := by
  induction text with
  | nil => rfl
  | cons c rest ih => rw [escapeChars_cons, escapeChars_single, ih, List.flatMap_cons]

theorem escapeChars_append (s t : List Char) :
    escapeChars (s ++ t) = escapeChars s ++ escapeChars t := by
  simp only [escapeChars_eq_flatMap, List.flatMap_append]

/-! ## Decoding -/

theorem decodeEntities_cons {c : Char} (hc : c ≠ '&') (rest : List Char) :
    decodeEntities (c :: rest) = c :: decodeEntities rest := by
  rw [decodeEntities] <;> exact fun _ h => absurd h hc

theorem decodeEntities_entityOf (c : Char) (rest : List Char) :
    decodeEntities (entityOf c ++ rest) = c :: decodeEntities rest := by
  by_cases hc : c ∈ specials
  · simp only [specials, List.mem_cons, List.not_mem_nil, or_false] at hc
    rcases hc with rfl | rfl | rfl | rfl | rfl <;> rfl
  · rw [entityOf_plain hc, List.singleton_append, decodeEntities_cons]
    rintro rfl
    exact hc (List.mem_cons_self ..)

theorem decodeEntities_escapeChars (text : List Char) :
    decodeEntities (escapeChars text) = text := by
  rw [escapeChars_eq_flatMap]
  induction text with
  | nil => rfl
  | cons c rest ih => rw [List.flatMap_cons, decodeEntities_entityOf, ih]

end Text

/-! ## Ampersands -/

namespace Markup

theorem not_mem_of_entity {body : List Char} (h : body ∈ entities) {c : Char} (hc : c ∈ specials) :
    c ∉ body := by
  have hall : (entities.all fun body => specials.all fun c => !body.contains c) = true := by decide
  simpa using List.all_eq_true.mp (List.all_eq_true.mp hall body h) c hc

theorem Inert.not_mem {text : List Char} (h : Inert text) {c : Char} (hc : c ∈ specials)
    (hne : c ≠ '&') : c ∉ text := by
  induction h with
  | nil => exact List.not_mem_nil
  | char hd _ ih =>
    rw [List.mem_cons, not_or]
    exact ⟨fun h => hd (h ▸ hc), ih⟩
  | entity he _ ih =>
    rw [List.mem_cons, List.mem_append, not_or, not_or]
    exact ⟨hne, not_mem_of_entity he hc, ih⟩

/-- Every ampersand of an inert text begins an entity. -/
theorem Inert.entity_behind {text before after : List Char} (h : Inert text)
    (ht : text = before ++ '&' :: after) : ∃ body ∈ entities, body <+: after := by
  induction h generalizing before with
  | nil => simp at ht
  | char hc _ ih =>
    cases before with
    | nil =>
      obtain rfl : _ = '&' := (List.cons.inj ht).1
      exact absurd (List.mem_cons_self ..) hc
    | cons d before => exact ih (List.cons.inj ht).2
  | @entity body rest he _ ih =>
    cases before with
    | nil =>
      obtain rfl : body ++ rest = after := (List.cons.inj ht).2
      exact ⟨body, he, List.prefix_append body rest⟩
    | cons d before =>
      -- no entity has an ampersand behind its first, so the ampersand is behind the entity
      rcases List.append_eq_append_iff.mp (List.cons.inj ht).2 with
        ⟨more, -, hrest⟩ | ⟨more, hbody, hmore⟩
      · exact ih hrest
      · cases more with
        | nil => exact ih (show rest = [] ++ '&' :: after from hmore.symm)
        | cons e more =>
          obtain rfl : '&' = e := (List.cons.inj hmore).1
          exact absurd (by simp [hbody]) (not_mem_of_entity he (List.mem_cons_self ..))

end Markup

namespace Text

/-- **Escaping is exact and reversible.** An escaped text is the text with every character replaced
at once, so escaping goes through concatenation. It has no angle bracket and no quote, and each of
its ampersands begins an entity. Decoding the entities from left to right gives the text back, so no
two texts are escaped alike. -/
theorem escape_exact (s : String) :
    (escape s).toList = s.toList.flatMap entityOf ∧
    (∀ t, escape (s ++ t) = escape s ++ escape t) ∧
    (∀ c ∈ ['<', '>', '"', '\''], c ∉ (escape s).toList) ∧
    (∀ before after, (escape s).toList = before ++ '&' :: after →
      ∃ body ∈ entities, body <+: after) ∧
    decodeEntities (escape s).toList = s.toList ∧
    ∀ t, escape s = escape t → s = t := by
  have hchars (t : String) : (escape t).toList = escapeChars t.toList := String.toList_ofList
  have hdecode (t : String) : decodeEntities (escape t).toList = t.toList := by
    rw [hchars, decodeEntities_escapeChars]
  refine ⟨?_, fun t => ?_, fun c hc => ?_, fun before after => ?_, hdecode s, fun t h => ?_⟩
  · rw [hchars, escapeChars_eq_flatMap]
  · rw [escape, escape, escape, String.toList_append, escapeChars_append, String.ofList_append]
  · have hne : c ≠ '&' := by
      rintro rfl
      exact absurd hc (by decide)
    exact (inert_escape s).not_mem (List.mem_cons_of_mem _ hc) hne
  · exact (inert_escape s).entity_behind
  · have hsame := congrArg (fun u => decodeEntities u.toList) h
    rw [hdecode, hdecode] at hsame
    exact String.toList_inj.mp hsame

/-- Entities of the text are no entities of the markup. -/
example : escape "&amp;lt;" = "&amp;amp;lt;" ∧
    decodeEntities (escape "&amp;lt;").toList = "&amp;lt;".toList := by decide

end Text

end Stencil
