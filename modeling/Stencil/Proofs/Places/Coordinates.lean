import Stencil.Proofs.Places.Locations

/-!
# Lines and columns as coordinates

**Theorem (`coordinates_ofOffset`).** Later offsets of a text are at later locations, and the
location of an offset is the one location in the text that leads back to the offset: by the lengths
of the lines in front of it, with their newlines, and by its column.

The lines of a text are what is left when it is cut at its newlines. In front of an offset stand
whole lines and a part of a line. The whole lines are the first lines of the text, and the part
begins the next one (`exists_rows`), so the location is in the text and leads back to the offset. No
other location in the text does, because an earlier one leads to an earlier offset (`offset_lt`).
-/

namespace Stencil.Location

variable {text : List Char} {l m : Location}

/-- The lines of a text, without the newlines between them. -/
def rows (text : List Char) : List (List Char) :=
  text.splitOn '\n'

/-- The length of lines with their newlines. -/
def extent : List (List Char) → Nat
  | [] => 0
  | row :: more => row.length + 1 + extent more

/-- The offset that a location leads to: the lines in front of its line, with their newlines, and
the columns in front of its column. -/
def offset (l : Location) (text : List Char) : Nat :=
  extent ((rows text).take (l.line - 1)) + (l.column - 1)

/-- The text has the line, and the column is in the line or right behind its last character. -/
structure IsIn (l : Location) (text : List Char) : Prop where
  line_pos : 1 ≤ l.line
  column_pos : 1 ≤ l.column
  exists_row : ∃ row, (rows text)[l.line - 1]? = some row ∧ l.column ≤ row.length + 1

/-! ## Lines of a text -/

theorem rows_newline (text : List Char) : rows ('\n' :: text) = [] :: rows text := by
  simp [rows, List.splitOn_cons_eq_if_modifyHead]

theorem rows_cons {c : Char} (h : c ≠ '\n') (text : List Char) :
    rows (c :: text) = (rows text).modifyHead (c :: ·) := by
  simp [rows, List.splitOn_cons_eq_if_modifyHead, h]

theorem exists_rows_cons (text : List Char) : ∃ first more, rows text = first :: more :=
  List.exists_cons_of_ne_nil (List.splitOn_ne_nil '\n' text)

/-- A line that has begun is continued by the first line of what follows. -/
theorem rows_append_part {part : List Char} (h : '\n' ∉ part) (text : List Char) :
    rows (part ++ text) = (rows text).modifyHead (part ++ ·) := by
  obtain ⟨first, more, hrows⟩ := exists_rows_cons text
  induction part with
  | nil => simp [hrows]
  | cons c part ih =>
    rw [List.mem_cons, not_or] at h
    rw [List.cons_append, rows_cons (Ne.symm h.1), ih h.2, hrows]
    rfl

theorem length_rows (text : List Char) : (rows text).length = text.count '\n' + 1 := by
  induction text with
  | nil => rfl
  | cons c text ih =>
    by_cases hc : c = '\n'
    · subst hc
      rw [rows_newline, List.length_cons, ih, List.count_cons_self]
    · rw [rows_cons hc, List.length_modifyHead, ih, List.count_cons_of_ne hc]

theorem extent_append (lines more : List (List Char)) :
    extent (lines ++ more) = extent lines + extent more := by
  induction lines with
  | nil => exact (Nat.zero_add _).symm
  | cons row lines ih => rw [List.cons_append, extent, extent, ih, ← Nat.add_assoc]

/-- All lines of a text, with their newlines, are one newline longer than the text. -/
theorem extent_rows (text : List Char) : extent (rows text) = text.length + 1 := by
  induction text with
  | nil => rfl
  | cons c text ih =>
    by_cases hc : c = '\n'
    · subst hc
      rw [rows_newline, extent, ih, List.length_cons, List.length_nil]
      omega
    · obtain ⟨first, more, hrows⟩ := exists_rows_cons text
      rw [hrows, extent] at ih
      rw [rows_cons hc, hrows, List.modifyHead_cons, extent, List.length_cons, List.length_cons]
      omega

/-! ## What stands in front of an offset -/

/-- Whole lines are the first lines of every text that begins with them. -/
theorem exists_whole {start : List Char} (h : IsLines start) : ∃ whole : List (List Char),
    whole.length = start.count '\n' ∧ extent whole = start.length ∧
      ∀ text, rows (start ++ text) = whole ++ rows text := by
  rcases List.eq_nil_or_concat' start with rfl | ⟨body, c, rfl⟩
  · exact ⟨[], rfl, rfl, fun _ => rfl⟩
  · obtain rfl : c = '\n' := h c (by simp)
    refine ⟨rows body, ?_, ?_, fun text => ?_⟩
    · rw [length_rows, List.count_append, List.count_singleton_self]
    · rw [extent_rows, List.length_append, List.length_singleton]
    · rw [List.append_assoc]
      exact List.splitOn_append_cons_self ..

/-- The location of an offset counts the lines in front of it and the part of its own line. -/
theorem exists_rows {o : Nat} (h : o ≤ text.length) :
    ∃ (whole : List (List Char)) (part behind : List Char) (more : List (List Char)),
      rows text = whole ++ (part ++ behind) :: more ∧
        ofOffset text o = ⟨whole.length + 1, part.length + 1⟩ ∧ extent whole + part.length = o := by
  obtain ⟨start, part, hbefore, hstart, hlines, hpart⟩ := exists_lines text o
  obtain ⟨whole, hlength, hextent, hwhole⟩ := exists_whole hlines
  obtain ⟨behind, more, hbehind⟩ := exists_rows_cons (text.drop o)
  have htake : start.length + part.length = o := by
    rw [← List.length_append, ← hbefore, List.length_take, Nat.min_eq_left h]
  refine ⟨whole, part, behind, more, ?_, ?_, ?_⟩
  · have htext : start ++ (part ++ text.drop o) = text := by
      rw [← List.append_assoc, ← hbefore, List.take_append_drop]
    rw [← htext, hwhole, rows_append_part hpart, hbehind, List.modifyHead_cons]
  · have hcount : (text.take o).count '\n' = whole.length := by
      rw [hbefore, List.count_append, List.count_eq_zero.mpr hpart, hlength, Nat.add_zero]
    have hcolumn : o - lineStart text o = part.length := by omega
    rw [ofOffset, hcount, hcolumn]
  · rw [hextent, htake]

theorem isIn_ofOffset {o : Nat} (h : o ≤ text.length) : (ofOffset text o).IsIn text := by
  obtain ⟨whole, part, behind, more, hrows, hplace, -⟩ := exists_rows h
  rw [hplace]
  refine ⟨Nat.le_add_left .., Nat.le_add_left .., part ++ behind, ?_, ?_⟩
  · rw [hrows, Nat.add_sub_cancel, List.getElem?_append_right (Nat.le_refl _), Nat.sub_self]
    rfl
  · rw [List.length_append]
    exact Nat.succ_le_succ (Nat.le_add_right ..)

/-- **The location of an offset leads back to the offset.** -/
theorem offset_ofOffset {o : Nat} (h : o ≤ text.length) : (ofOffset text o).offset text = o := by
  obtain ⟨whole, part, behind, more, hrows, hplace, hextent⟩ := exists_rows h
  rw [hplace, offset, hrows, Nat.add_sub_cancel, Nat.add_sub_cancel, List.take_left, hextent]

/-! ## The offset of a location -/

theorem extent_take_le (lines : List (List Char)) {i j : Nat} (h : i ≤ j) :
    extent (lines.take i) ≤ extent (lines.take j) := by
  obtain ⟨between, hbetween⟩ : lines.take i <+: lines.take j := List.take_prefix_take_left h
  rw [← hbetween, extent_append]
  exact Nat.le_add_right ..

/-- A location in a text leads to an offset in front of the end of its line. -/
theorem offset_lt_extent (h : l.IsIn text) : l.offset text < extent ((rows text).take l.line) := by
  obtain ⟨row, hrow, hcolumn⟩ := h.exists_row
  have hnext : extent ((rows text).take (l.line - 1 + 1)) =
      extent ((rows text).take (l.line - 1)) + (row.length + 1) := by
    rw [List.take_add_one, hrow, extent_append]
    rfl
  rw [Nat.sub_add_cancel h.line_pos] at hnext
  have hpos := h.column_pos
  rw [offset, hnext]
  omega

theorem offset_le (h : l.IsIn text) : l.offset text ≤ text.length := by
  have hlt := offset_lt_extent h
  have hle := extent_take_le (rows text) (Nat.le_max_left l.line (rows text).length)
  rw [List.take_of_length_le (Nat.le_max_right ..), extent_rows] at hle
  omega

/-- A location in a text leads to an earlier offset than the locations behind it. -/
theorem offset_lt (hl : l.IsIn text) (h : l.before m) : l.offset text < m.offset text := by
  rcases h with hline | ⟨hline, hcolumn⟩
  · -- the line of `l` ends before the line of `m` begins
    calc l.offset text
        < extent ((rows text).take l.line) := offset_lt_extent hl
      _ ≤ extent ((rows text).take (m.line - 1)) := extent_take_le _ (Nat.le_sub_one_of_lt hline)
      _ ≤ m.offset text := Nat.le_add_right ..
  · have hpos := hl.column_pos
    rw [offset, offset, hline]
    omega

/-- Two locations in a text that lead to one offset are the same. -/
theorem eq_of_offset_eq (hl : l.IsIn text) (hm : m.IsIn text)
    (h : l.offset text = m.offset text) : l = m := by
  have hlm : ¬ l.before m := fun hlt => absurd h (Nat.ne_of_lt (offset_lt hl hlt))
  have hml : ¬ m.before l := fun hlt => absurd h (Nat.ne_of_gt (offset_lt hm hlt))
  obtain ⟨line, column⟩ := l
  obtain ⟨line', column'⟩ := m
  simp only [before] at hlm hml
  obtain ⟨rfl, rfl⟩ : line = line' ∧ column = column' := by omega
  rfl

/-- **A location in a text is that of the offset that it leads to.** -/
theorem ofOffset_offset (h : l.IsIn text) : ofOffset text (l.offset text) = l :=
  eq_of_offset_eq (isIn_ofOffset (offset_le h)) h (offset_ofOffset (offset_le h))

/-- **Locations are coordinates of the offsets in a text.** A later offset is at a later location.
The location of an offset counts the newlines in front of it, and it is the one location in the text
that leads back to the offset. -/
theorem coordinates_ofOffset (text : List Char) :
    (∀ o p, o < p → p ≤ text.length → (ofOffset text o).before (ofOffset text p)) ∧
      ∀ o, o ≤ text.length → (ofOffset text o).line - 1 = (text.take o).count '\n' ∧
        ∀ l, ofOffset text o = l ↔ l.IsIn text ∧ l.offset text = o := by
  refine ⟨fun o p hlt _ => before_of_lt hlt, fun o ho => ⟨Nat.add_sub_cancel .., fun l => ?_⟩⟩
  constructor
  · rintro rfl
    exact ⟨isIn_ofOffset ho, offset_ofOffset ho⟩
  · rintro ⟨hin, rfl⟩
    exact ofOffset_offset hin

/-- Two lines with an empty one between them. -/
def emptyLine : List Char :=
  ['a', 'b', '\n', '\n', 'c', 'd']

/-- The end of the first line, the empty line and the end of the text. -/
theorem coordinates_ofOffset_emptyLine :
    (2 < 3 ∧ 3 ≤ emptyLine.length ∧ (ofOffset emptyLine 2).before (ofOffset emptyLine 3)) ∧
      6 ≤ emptyLine.length ∧ (⟨3, 3⟩ : Location).IsIn emptyLine ∧
        (⟨3, 3⟩ : Location).offset emptyLine = 6 :=
  have h := coordinates_ofOffset emptyLine
  ⟨⟨by decide, by decide, h.1 2 3 (by decide) (by decide)⟩, by decide,
    ((h.2 6 (by decide)).2 ⟨3, 3⟩).mp rfl⟩

end Stencil.Location
