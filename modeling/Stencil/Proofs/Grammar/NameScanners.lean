import Stencil.Proofs.Markup.Scan
import Stencil.Source.Scanner

/-!
# Names that are scanned can stand in tags

The scanners for names of elements and of attributes take word characters, hyphens, points, colons
and at signs only. None of these is a delimiter of a tag.
-/

namespace Stencil.Source

open Text Markup

/-- A text without characters that end a name in a tag. -/
def IsSolid (text : List Char) : Prop :=
  ∀ c ∈ text, isDelimiter c = false

theorem IsSolid.nil : IsSolid [] := nofun

theorem IsSolid.cons {c : Char} {text : List Char} (hc : isDelimiter c = false)
    (h : IsSolid text) : IsSolid (c :: text) :=
  List.forall_mem_cons.mpr ⟨hc, h⟩

theorem IsSolid.append {a b : List Char} (ha : IsSolid a) (hb : IsSolid b) : IsSolid (a ++ b) :=
  List.forall_mem_append.mpr ⟨ha, hb⟩

/-! ## Characters -/

theorem solid_of_word {c : Char} (h : isWord c = true) : isDelimiter c = false := by
  rw [← Bool.not_eq_true]
  intro hc
  simp only [isDelimiter, List.contains_eq_mem, List.mem_cons, List.not_mem_nil, or_false,
    decide_eq_true_eq] at hc
  rcases hc with rfl | rfl | rfl | rfl | rfl | rfl | rfl | rfl | rfl | rfl | rfl | rfl <;>
    exact absurd h (by decide)

theorem isWord_of_nameHead {c : Char} (h : isNameHead c = true) : isWord c = true := by
  have hsmall : c.toNat < 128 := by
    simp only [isNameHead, isAsciiLetter, Bool.or_eq_true, Bool.and_eq_true, decide_eq_true_eq,
      beq_iff_eq] at h
    rcases h with (⟨-, h⟩ | ⟨-, h⟩) | rfl
    · exact Nat.lt_of_le_of_lt h (by decide)
    · exact Nat.lt_of_le_of_lt h (by decide)
    · decide
  rw [isNameHead, Bool.or_eq_true] at h
  rw [isWord, if_pos hsmall, isPlainWord, isLetter, if_pos hsmall]
  rcases h with h | h <;> simp [h]

theorem solid_of_nameHead {c : Char} (h : isNameHead c = true) : isDelimiter c = false :=
  solid_of_word (isWord_of_nameHead h)

theorem solid_of_letter {c : Char} (h : isAsciiLetter c = true) : isDelimiter c = false :=
  solid_of_nameHead (by simp [isNameHead, h])

theorem solid_of_tagChar {c : Char} (h : isTagChar c = true) : isDelimiter c = false := by
  rw [isTagChar, Bool.or_eq_true, beq_iff_eq] at h
  rcases h with h | rfl
  · exact solid_of_word h
  · decide

theorem solid_of_attributeChar {c : Char} (h : isAttributeChar c = true) :
    isDelimiter c = false := by
  simp only [isAttributeChar, Bool.or_eq_true, beq_iff_eq] at h
  rcases h with ((h | rfl) | rfl) | rfl
  · exact solid_of_word h
  · decide
  · decide
  · decide

/-! ## Runs -/

theorem take_run (p : Char → Bool) (text : List Char) :
    text.take (run p text) = text.takeWhile p :=
  (List.prefix_iff_eq_take.mp (List.takeWhile_prefix p)).symm

theorem solid_run {p : Char → Bool} (hp : ∀ c, p c = true → isDelimiter c = false)
    (text : List Char) : IsSolid (text.take (run p text)) := by
  rw [take_run]
  exact fun c hc => hp c (List.all_eq_true.mp List.all_takeWhile c hc)

/-! ## Names of tags -/

theorem solid_tagNameRest (text : List Char) : IsSolid (text.take (tagNameRest text)) := by
  fun_induction tagNameRest text with
  | case1 => exact .nil
  | case2 c rest hc ih =>
    rw [Nat.add_comm]
    exact .cons (solid_of_tagChar hc) ih
  | case3 c hc hmark d more hd ih =>
    rw [Nat.add_comm]
    refine .cons ?_ (.cons (solid_of_nameHead hd) ih)
    rw [Bool.or_eq_true, beq_iff_eq, beq_iff_eq] at hmark
    rcases hmark with rfl | rfl <;> decide
  | case4 | case5 | case6 => exact .nil

theorem tagName_of_letter {c : Char} {more : List Char} (hc : isAsciiLetter c = true)
    (h : IsSolid more) : IsTagName (c :: more) :=
  ⟨⟨List.cons_ne_nil _ _, h.cons (solid_of_letter hc)⟩, by simpa using hc⟩

theorem isTagName_tagName {text : List Char} {n : Nat} (h : tagName text = some n) :
    IsTagName (text.take n) := by
  unfold tagName at h
  split at h
  · cases h
  · next c rest =>
    split at h
    · next hc =>
      cases h
      rw [Nat.add_comm]
      exact tagName_of_letter hc (solid_tagNameRest rest)
    · cases h

theorem isTagName_blockName {text : List Char} {n : Nat} (h : blockName text = some n) :
    IsTagName (text.take n) := by
  unfold blockName at h
  split at h
  · cases h
  next c rest =>
  split at h
  · next hc =>
    have hrun := solid_run (fun _ => solid_of_tagChar) rest
    dsimp only at h
    split at h
    · next d more hdrop =>
      split at h
      · next hd =>
        cases h
        rw [show 1 + run isTagChar rest + 2 + run isTagChar more =
          run isTagChar rest + (run isTagChar more + 2) + 1 by omega, List.take_succ_cons,
          List.take_add, hdrop, List.take_succ_cons, List.take_succ_cons]
        exact tagName_of_letter hc (hrun.append
          (.cons (by decide) (.cons (solid_of_nameHead hd) (solid_run (fun _ => solid_of_tagChar) more))))
      · cases h
        rw [Nat.add_comm]
        exact tagName_of_letter hc hrun
    · cases h
      rw [Nat.add_comm]
      exact tagName_of_letter hc hrun
  · cases h

/-! ## Names of attributes -/

theorem solid_attributeMark (text : List Char) : IsSolid (text.take (attributeMark text)) := by
  unfold attributeMark
  split
  · exact .cons (by decide) .nil
  · exact .cons (by decide) .nil
  · exact .nil

theorem isName_attributeName {text : List Char} {n : Nat} (h : attributeName text = some n) :
    IsName (text.take n) := by
  unfold attributeName at h
  dsimp only at h
  split at h
  · next c rest hdrop =>
    split at h
    · next hc =>
      cases h
      have hrest : IsSolid ((c :: rest).take (1 + run isAttributeChar rest)) := by
        rw [Nat.add_comm]
        exact .cons (solid_of_nameHead hc) (solid_run (fun _ => solid_of_attributeChar) rest)
      rw [Nat.add_assoc, List.take_add, hdrop]
      refine ⟨fun hnil => ?_, (solid_attributeMark text).append hrest⟩
      rw [Nat.add_comm] at hnil
      cases (List.append_eq_nil_iff.mp hnil).2
    · cases h
  · cases h

end Stencil.Source
