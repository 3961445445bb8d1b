import Stencil.Proofs.Places.Order

/-!
# Locations lead back to the text

A location is as good as an offset. Later offsets are at later locations (`before_of_lt`), and by
counting newlines and columns the location of an offset leads back to what stands behind the offset
(`rest_ofOffset`).
-/

namespace Stencil.Location

variable {text : List Char}

/-- The text without its first lines. -/
def dropLines : Nat → List Char → List Char
  | 0, text => text
  | n + 1, text => dropLines n ((text.dropWhile (· != '\n')).drop 1)

/-- The text from a location on. -/
def rest (l : Location) (text : List Char) : List Char :=
  (dropLines (l.line - 1) text).drop (l.column - 1)

/-! ## Whole lines -/

/-- The text consists of lines that end with a newline. -/
def IsLines (text : List Char) : Prop :=
  ∀ c ∈ text.getLast?, c = '\n'

/-- What stands before an offset is whole lines and a part of a line. -/
theorem exists_lines (text : List Char) (offset : Nat) : ∃ start part,
    text.take offset = start ++ part ∧ start.length = lineStart text offset ∧ IsLines start ∧
      '\n' ∉ part := by
  have hsplit := List.takeWhile_append_dropWhile (p := (· != '\n')) (l := (text.take offset).reverse)
  -- from behind, the part of a line is what stands in front of the first newline
  refine ⟨((text.take offset).reverse.dropWhile (· != '\n')).reverse,
    ((text.take offset).reverse.takeWhile (· != '\n')).reverse, ?_, ?_, ?_, ?_⟩
  · rw [← List.reverse_append, hsplit, List.reverse_reverse]
  · have hlength := congrArg List.length hsplit
    rw [List.length_append, List.length_reverse] at hlength
    unfold lineStart
    dsimp only
    rw [List.length_reverse]
    omega
  · intro c hc
    rw [List.getLast?_reverse] at hc
    have hnot := List.head?_dropWhile_not (· != '\n') (text.take offset).reverse
    rw [Option.mem_def.mp hc] at hnot
    simpa using hnot
  · intro hmem
    have hne := List.all_eq_true.mp List.all_takeWhile _ (List.mem_reverse.mp hmem)
    simp at hne

/-- Whole lines are as many as there are newlines in them. -/
theorem dropLines_append {lines : List Char} (h : IsLines lines) (after : List Char) :
    dropLines (lines.count '\n') (lines ++ after) = after := by
  induction lines with
  | nil => rfl
  | cons c lines ih =>
    have hlines : IsLines lines := by
      intro d hd
      refine h d ?_
      rw [List.getLast?_cons, Option.mem_def.mp hd]
      rfl
    by_cases hc : c = '\n'
    · subst hc
      rw [List.count_cons_self, dropLines]
      simpa using ih hlines
    · -- the line goes on, up to a newline further on
      have hne : lines ≠ [] := by
        rintro rfl
        exact hc (h c rfl)
      have hlast : '\n' ∈ lines := by
        have hmem := List.getLast_mem hne
        rwa [hlines _ (List.getLast?_eq_some_getLast hne)] at hmem
      obtain ⟨k, hk⟩ := Nat.exists_eq_add_one.mpr (List.count_pos_iff.mpr hlast)
      have hrest := ih hlines
      rw [hk] at hrest
      rw [List.count_cons_of_ne hc, hk, dropLines, List.cons_append,
        List.dropWhile_cons_of_pos (by simpa using hc)]
      exact hrest

/-! ## Locations and offsets -/

theorem lineStart_le (text : List Char) (offset : Nat) : lineStart text offset ≤ offset := by
  obtain ⟨start, part, hbefore, hstart, -, -⟩ := exists_lines text offset
  have hlength := List.length_take_le offset text
  rw [hbefore, List.length_append] at hlength
  omega

/-- **The location of an offset leads back to what stands behind the offset.** -/
theorem rest_ofOffset (text : List Char) (offset : Nat) :
    (ofOffset text offset).rest text = text.drop offset := by
  obtain ⟨start, part, hbefore, hstart, hlines, hpart⟩ := exists_lines text offset
  have htext : start ++ (part ++ text.drop offset) = text := by
    rw [← List.append_assoc, ← hbefore, List.take_append_drop]
  have hcount : (text.take offset).count '\n' = start.count '\n' := by
    rw [hbefore, List.count_append, List.count_eq_zero.mpr hpart, Nat.add_zero]
  have hlines : dropLines (start.count '\n') text = text.drop (lineStart text offset) := by
    have hlines := dropLines_append hlines (part ++ text.drop offset)
    have hdrop : (start ++ (part ++ text.drop offset)).drop start.length =
      part ++ text.drop offset := List.drop_left
    rw [htext] at hlines hdrop
    rw [hlines, ← hstart, hdrop]
  rw [rest, ofOffset]
  dsimp only
  rw [Nat.add_sub_cancel, Nat.add_sub_cancel, hcount, hlines, List.drop_drop,
    Nat.add_sub_cancel' (lineStart_le text offset)]

/-- **A later offset is at a later location.** -/
theorem before_of_lt {i j : Nat} (h : i < j) : (ofOffset text i).before (ofOffset text j) := by
  have hle : (ofOffset text i).line ≤ (ofOffset text j).line := line_le (Nat.le_of_lt h)
  rcases Nat.lt_or_eq_of_le hle with hlt | heq
  · exact .inl hlt
  · have hstart := lineStart_eq (Nat.le_of_lt h) heq
    have hi := lineStart_le text i
    refine .inr ⟨heq, ?_⟩
    simp only [ofOffset, ← hstart]
    omega

end Stencil.Location
