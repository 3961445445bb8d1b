import Mathlib.Data.List.DropRight
import Stencil.Proofs.Layout.Trim

/-!
# Collapsed texts

A text that is not blank has one split into a run of blanks, a core that neither begins nor ends
with a blank, and another run (`exists_split`). Collapsing it squeezes the core and leaves what is
left of the runs at the edges (`collapse_split`); a blank text is one run. So what is true of a
collapsed text is shown for squeezed texts, by induction, and for edges: white space is in normal
form, and all else is as it was (`collapse_exact`).

That two characters stand next to each other is said by their number among those that are not blank,
which collapsing does not change.
-/

namespace Stencil.Text

/-- Whether, of the characters that are not blank, number `k` and the next one stand side by side
in a text. -/
def AdjacentAt (k : Nat) (text : List Char) : Prop :=
  ∃ before c d after, text = before ++ c :: d :: after ∧ isBlank c = false ∧ isBlank d = false ∧
    before.countP (!isBlank ·) = k

/-- A text that is not empty and has no blank at either end. -/
structure IsTrimmed (core : List Char) : Prop where
  first : ∃ c rest, core = c :: rest ∧ isBlank c = false
  last : ∃ rest c, core = rest ++ [c] ∧ isBlank c = false

/-- White space in normal form: spaces, no two in a row. -/
structure IsCollapsed (text : List Char) : Prop where
  spaces : ∀ c ∈ text, isBlank c = true → c = ' '
  apart : text.IsChain fun c d => isBlank c = false ∨ isBlank d = false

variable {s t front core back run : List Char}

/-! ## The split of a text -/

/-- A text is blank, or there is a core between two runs of blanks. -/
theorem exists_split (text : List Char) : (∀ c ∈ text, isBlank c = true) ∨
    ∃ front core back, text = front ++ core ++ back ∧ (∀ c ∈ front, isBlank c = true) ∧
      (∀ c ∈ back, isBlank c = true) ∧ IsTrimmed core := by
  rcases blank_or_cons text with hblank | ⟨front, c, rest, rfl, hfront, hc⟩
  · exact .inl hblank
  refine .inr ?_
  -- the same from behind: the last character that is not blank ends the core
  rcases blank_or_cons (c :: rest).reverse with hblank | ⟨back, d, more, hmore, hback, hd⟩
  · rw [hblank c (by simp)] at hc
    cases hc
  have hrest : c :: rest = more.reverse ++ [d] ++ back.reverse := by
    rw [← List.reverse_reverse (c :: rest), hmore]
    simp
  refine ⟨front, more.reverse ++ [d], back.reverse, ?_, hfront,
    fun c hc => hback c (List.mem_reverse.mp hc), ?_, more.reverse, d, rfl, hd⟩
  · rw [hrest]
    simp only [List.append_assoc]
  · cases hfirst : more.reverse with
    | nil => exact ⟨d, [], rfl, hd⟩
    | cons e others =>
      rw [hfirst] at hrest
      obtain rfl : c = e := (List.cons.inj hrest).1
      exact ⟨c, others ++ [d], rfl, hc⟩

theorem takeWhile_split (hfront : ∀ c ∈ front, isBlank c = true) (hcore : IsTrimmed core)
    (back : List Char) : (front ++ core ++ back).takeWhile isBlank = front := by
  obtain ⟨c, rest, rfl, hc⟩ := hcore.first
  rw [List.append_assoc, List.takeWhile_append_of_pos hfront]
  simp [hc]

theorem rtakeWhile_split (hback : ∀ c ∈ back, isBlank c = true) (hcore : IsTrimmed core)
    (front : List Char) : (front ++ core ++ back).rtakeWhile isBlank = back := by
  obtain ⟨rest, c, rfl, hc⟩ := hcore.last
  have hreverse : ∀ d ∈ back.reverse, isBlank d = true :=
    fun d hd => hback d (List.mem_reverse.mp hd)
  rw [List.rtakeWhile, List.reverse_append, List.takeWhile_append_of_pos hreverse]
  simp [hc]

/-- **What a text is collapsed to**, by its split. -/
theorem collapse_split (hfront : ∀ c ∈ front, isBlank c = true)
    (hback : ∀ c ∈ back, isBlank c = true) (hcore : IsTrimmed core) :
    collapse (front ++ core ++ back) = edge front ++ squeeze core ++ edge back := by
  have hstart : trimStart (front ++ core ++ back) = core ++ back := by
    obtain ⟨c, rest, rfl, hc⟩ := hcore.first
    rw [List.append_assoc, trimStart_blank hfront]
    exact trimStart_cons hc (rest ++ back)
  have hend : trimEnd (core ++ back) = core := by
    obtain ⟨rest, c, rfl, hc⟩ := hcore.last
    rw [trimEnd_blank hback, trimEnd_append_cons hc]
    rfl
  rw [collapse, hstart, hend, takeWhile_split hfront hcore, List.drop_left]

/-- A blank text is one run. -/
theorem collapse_blank (h : ∀ c ∈ run, isBlank c = true) : collapse run = edge run := by
  have hstart : trimStart run = [] := by
    have hall := trimStart_blank h []
    rwa [List.append_nil] at hall
  rw [collapse, hstart, List.takeWhile_eq_self_iff.mpr h]
  simp [trimEnd, squeeze, edge]

/-! ## Edges -/

theorem edge_cases (run : List Char) : edge run = [] ∨ edge run = [' '] := by
  unfold edge
  split
  · exact .inl rfl
  · exact .inr rfl

theorem edge_eq_space : edge run = [' '] ↔ run ≠ [] ∧ '\n' ∉ run := by
  unfold edge
  split
  · next h =>
    rw [Bool.or_eq_true, List.isEmpty_iff, List.contains_iff_mem] at h
    simpa [imp_iff_not_or] using h
  · next h => simpa using h

theorem head_edge_append (h : s.head? ≠ some ' ') :
    (edge run ++ s).head? = some ' ' ↔ run ≠ [] ∧ '\n' ∉ run := by
  rw [← edge_eq_space]
  rcases edge_cases run with hedge | hedge <;> simp [hedge, h]

theorem getLast_append_edge (h : s.getLast? ≠ some ' ') :
    (s ++ edge run).getLast? = some ' ' ↔ run ≠ [] ∧ '\n' ∉ run := by
  rw [← edge_eq_space]
  rcases edge_cases run with hedge | hedge <;> simp [hedge, h]

theorem isCollapsed_edge (run : List Char) : IsCollapsed (edge run) := by
  rcases edge_cases run with hedge | hedge <;> rw [hedge]
  · exact ⟨List.forall_mem_nil _, .nil⟩
  · exact ⟨fun c hc _ => List.mem_singleton.mp hc, .singleton _⟩

/-! ## Squeezed texts -/

theorem isBlank_space : isBlank ' ' = true := by decide

theorem squeeze_solid {c : Char} (hc : isBlank c = false) (rest : List Char) :
    squeeze (c :: rest) = c :: squeeze rest := by
  simp [squeeze, hc]

/-- Of a run of blanks only the last counts. -/
theorem squeeze_run {c : Char} (hc : isBlank c = true) {rest : List Char}
    (hrest : rest.head?.map isBlank = some true) : squeeze (c :: rest) = squeeze rest := by
  simp [squeeze, hc, hrest]

theorem squeeze_blank {c : Char} (hc : isBlank c = true) {rest : List Char}
    (hrest : rest.head?.map isBlank ≠ some true) : squeeze (c :: rest) = ' ' :: squeeze rest := by
  have hnext : (rest.head?.map isBlank).getD false = false := by
    cases hhead : rest.head?.map isBlank with
    | none => rfl
    | some blank => simpa [hhead] using hrest
  simp [squeeze, hc, hnext]

/-- Induction along a text: a character that is not blank, a blank in front of others, or the last
blank of a run. -/
theorem squeeze_induction {P : List Char → Prop} (nil : P [])
    (solid : ∀ c rest, isBlank c = false → P rest → P (c :: rest))
    (run : ∀ c rest, isBlank c = true → rest.head?.map isBlank = some true → P rest →
      P (c :: rest))
    (blank : ∀ c rest, isBlank c = true → rest.head?.map isBlank ≠ some true → P rest →
      P (c :: rest))
    (s : List Char) : P s := by
  induction s with
  | nil => exact nil
  | cons c rest ih =>
    cases hc : isBlank c with
    | false => exact solid c rest hc ih
    | true =>
      by_cases hrest : rest.head?.map isBlank = some true
      · exact run c rest hc hrest ih
      · exact blank c rest hc hrest ih

/-- A squeezed text begins with a blank if the text does. -/
theorem head_squeeze (s : List Char) : (squeeze s).head?.map isBlank = s.head?.map isBlank := by
  induction s using squeeze_induction with
  | nil => rfl
  | solid c rest hc ih => rw [squeeze_solid hc, List.head?_cons, List.head?_cons]
  | run c rest hc hrest ih =>
    rw [squeeze_run hc hrest, ih, hrest, List.head?_cons, Option.map_some, hc]
  | blank c rest hc hrest ih =>
    rw [squeeze_blank hc hrest, List.head?_cons, List.head?_cons, Option.map_some, Option.map_some,
      hc, isBlank_space]

theorem squeeze_append_solid {c : Char} (hc : isBlank c = false) (s : List Char) :
    squeeze (s ++ [c]) = squeeze s ++ [c] := by
  have hhead (rest : List Char) : (rest ++ [c]).head?.map isBlank = some true ↔
      rest.head?.map isBlank = some true := by
    cases rest <;> simp [hc]
  induction s using squeeze_induction with
  | nil => exact squeeze_solid hc []
  | solid d rest hd ih => rw [List.cons_append, squeeze_solid hd, squeeze_solid hd, ih]; rfl
  | run d rest hd hrest ih =>
    rw [List.cons_append, squeeze_run hd ((hhead rest).mpr hrest), squeeze_run hd hrest, ih]
  | blank d rest hd hrest ih =>
    rw [List.cons_append, squeeze_blank hd (mt (hhead rest).mp hrest), squeeze_blank hd hrest, ih]
    rfl

theorem IsTrimmed.squeeze (h : IsTrimmed core) : IsTrimmed (squeeze core) where
  first := by
    obtain ⟨c, rest, rfl, hc⟩ := h.first
    exact ⟨c, _, squeeze_solid hc rest, hc⟩
  last := by
    obtain ⟨rest, c, rfl, hc⟩ := h.last
    exact ⟨_, c, squeeze_append_solid hc rest, hc⟩

theorem isCollapsed_squeeze (s : List Char) : IsCollapsed (squeeze s) := by
  induction s using squeeze_induction with
  | nil => exact ⟨List.forall_mem_nil _, .nil⟩
  | solid c rest hc ih =>
    rw [squeeze_solid hc]
    refine ⟨List.forall_mem_cons.mpr ⟨fun h => ?_, ih.spaces⟩, ?_⟩
    · rw [hc] at h
      cases h
    · exact List.isChain_cons.mpr ⟨fun _ _ => .inl hc, ih.apart⟩
  | run c rest hc hrest ih => rwa [squeeze_run hc hrest]
  | blank c rest hc hrest ih =>
    rw [squeeze_blank hc hrest]
    refine ⟨List.forall_mem_cons.mpr ⟨fun _ => rfl, ih.spaces⟩, ?_⟩
    refine List.isChain_cons.mpr ⟨fun d hd => .inr ?_, ih.apart⟩
    have hhead := head_squeeze rest
    rw [Option.mem_def.mp hd, Option.map_some] at hhead
    rw [← hhead] at hrest
    simpa using hrest

theorem filter_squeeze (s : List Char) :
    (squeeze s).filter (!isBlank ·) = s.filter (!isBlank ·) := by
  induction s using squeeze_induction with
  | nil => rfl
  | solid c rest hc ih => simp [squeeze_solid hc, hc, ih]
  | run c rest hc hrest ih => simp [squeeze_run hc hrest, hc, ih]
  | blank c rest hc hrest ih => simp [squeeze_blank hc hrest, hc, isBlank_space, ih]

/-- Nothing is left to squeeze in a collapsed text. -/
theorem squeeze_of_collapsed (h : IsCollapsed s) : squeeze s = s := by
  induction s with
  | nil => rfl
  | cons c rest ih =>
    obtain ⟨hspace, hspaces⟩ := List.forall_mem_cons.mp h.spaces
    obtain ⟨hnext, hapart⟩ := List.isChain_cons.mp h.apart
    cases hc : isBlank c with
    | false => rw [squeeze_solid hc, ih ⟨hspaces, hapart⟩]
    | true =>
      have hrest : rest.head?.map isBlank ≠ some true := by
        intro hhead
        obtain ⟨d, hd, hblank⟩ := Option.map_eq_some_iff.mp hhead
        rcases hnext d hd with h | h
        · rw [hc] at h
          cases h
        · rw [hblank] at h
          cases h
      rw [squeeze_blank hc hrest, ih ⟨hspaces, hapart⟩, hspace hc]

/-! ## Neighbours -/

theorem adjacentAt_blank {c : Char} (hc : isBlank c = true) {k : Nat} :
    AdjacentAt k (c :: s) ↔ AdjacentAt k s := by
  constructor
  · rintro ⟨before, d, e, after, heq, hd, he, hk⟩
    cases before with
    | nil =>
      obtain rfl : c = d := (List.cons.inj heq).1
      rw [hc] at hd
      cases hd
    | cons b before =>
      obtain ⟨rfl, rfl⟩ := List.cons.inj heq
      exact ⟨before, d, e, after, rfl, hd, he, by simpa [hc] using hk⟩
  · rintro ⟨before, d, e, after, rfl, hd, he, hk⟩
    exact ⟨c :: before, d, e, after, rfl, hd, he, by simpa [hc] using hk⟩

theorem adjacentAt_zero {c : Char} (hc : isBlank c = false) :
    AdjacentAt 0 (c :: s) ↔ s.head?.map isBlank = some false := by
  constructor
  · rintro ⟨before, d, e, after, heq, hd, he, hk⟩
    cases before with
    | nil =>
      obtain ⟨rfl, rfl⟩ := List.cons.inj heq
      simp [he]
    | cons b before =>
      obtain rfl : c = b := (List.cons.inj heq).1
      simp [hc] at hk
  · intro h
    obtain ⟨d, hd, hblank⟩ := Option.map_eq_some_iff.mp h
    obtain ⟨rest, rfl⟩ := List.head?_eq_some_iff.mp hd
    exact ⟨[], c, d, rest, rfl, hc, hblank, rfl⟩

theorem adjacentAt_succ {c : Char} (hc : isBlank c = false) {k : Nat} :
    AdjacentAt (k + 1) (c :: s) ↔ AdjacentAt k s := by
  constructor
  · rintro ⟨before, d, e, after, heq, hd, he, hk⟩
    cases before with
    | nil => cases hk
    | cons b before =>
      obtain ⟨rfl, rfl⟩ := List.cons.inj heq
      exact ⟨before, d, e, after, rfl, hd, he, by simpa [hc] using hk⟩
  · rintro ⟨before, d, e, after, rfl, hd, he, rfl⟩
    exact ⟨c :: before, d, e, after, rfl, hd, he, by simp [hc]⟩

/-- Which characters stand side by side is the same in two texts that go on alike. -/
theorem adjacentAt_cons_congr {c : Char} (hhead : s.head?.map isBlank = t.head?.map isBlank)
    (h : ∀ k, AdjacentAt k s ↔ AdjacentAt k t) (k : Nat) :
    AdjacentAt k (c :: s) ↔ AdjacentAt k (c :: t) := by
  cases hc : isBlank c with
  | true => rw [adjacentAt_blank hc, adjacentAt_blank hc, h]
  | false =>
    cases k with
    | zero => rw [adjacentAt_zero hc, adjacentAt_zero hc, hhead]
    | succ k => rw [adjacentAt_succ hc, adjacentAt_succ hc, h]

theorem adjacentAt_squeeze (s : List Char) (k : Nat) :
    AdjacentAt k (squeeze s) ↔ AdjacentAt k s := by
  induction s using squeeze_induction generalizing k with
  | nil => rfl
  | solid c rest hc ih =>
    rw [squeeze_solid hc]
    exact adjacentAt_cons_congr (head_squeeze rest) ih k
  | run c rest hc hrest ih => rw [squeeze_run hc hrest, ih, adjacentAt_blank hc]
  | blank c rest hc hrest ih =>
    rw [squeeze_blank hc hrest, adjacentAt_blank isBlank_space, adjacentAt_blank hc, ih]

theorem adjacentAt_blank_append (h : ∀ c ∈ front, isBlank c = true) (k : Nat) :
    AdjacentAt k (front ++ s) ↔ AdjacentAt k s := by
  induction front with
  | nil => rfl
  | cons c front ih =>
    obtain ⟨hc, hfront⟩ := List.forall_mem_cons.mp h
    rw [List.cons_append, adjacentAt_blank hc, ih hfront]

theorem adjacentAt_append_blank (h : ∀ c ∈ back, isBlank c = true) (k : Nat) :
    AdjacentAt k (s ++ back) ↔ AdjacentAt k s := by
  induction s generalizing k with
  | nil => simpa using adjacentAt_blank_append h (s := []) k
  | cons c rest ih =>
    cases hc : isBlank c with
    | true => rw [List.cons_append, adjacentAt_blank hc, adjacentAt_blank hc, ih]
    | false =>
      cases k with
      | succ k => rw [List.cons_append, adjacentAt_succ hc, adjacentAt_succ hc, ih]
      | zero =>
        rw [List.cons_append, adjacentAt_zero hc, adjacentAt_zero hc]
        cases rest with
        | cons d rest => rfl
        | nil =>
          cases back with
          | nil => rfl
          | cons d back => simp [h d (List.mem_cons_self ..)]

/-! ## Collapsed texts -/

theorem isCollapsed_collapse (text : List Char) : IsCollapsed (collapse text) := by
  rcases exists_split text with hblank | ⟨front, core, back, rfl, hfront, hback, hcore⟩
  · rw [collapse_blank hblank]
    exact isCollapsed_edge text
  rw [collapse_split hfront hback hcore]
  have hedge := isCollapsed_edge front
  have hsqueeze := isCollapsed_squeeze core
  have hend := isCollapsed_edge back
  obtain ⟨c, rest, hfirst, hc⟩ := hcore.squeeze.first
  obtain ⟨others, d, hlast, hd⟩ := hcore.squeeze.last
  constructor
  · exact List.forall_mem_append.mpr
      ⟨List.forall_mem_append.mpr ⟨hedge.spaces, hsqueeze.spaces⟩, hend.spaces⟩
  · -- the squeezed core has no blank where an edge touches it
    refine List.isChain_append.mpr ⟨List.isChain_append.mpr ⟨hedge.apart, hsqueeze.apart, ?_⟩,
      hend.apart, ?_⟩
    · intro x _ y hy
      rw [hfirst, List.head?_cons, Option.mem_some_iff] at hy
      exact .inr (hy ▸ hc)
    · intro x hx y _
      rw [hlast, ← List.append_assoc, List.getLast?_concat, Option.mem_some_iff] at hx
      exact .inl (hx ▸ hd)

theorem filter_blank (h : ∀ c ∈ run, isBlank c = true) : run.filter (!isBlank ·) = [] :=
  List.filter_eq_nil_iff.mpr fun c hc => by simp [h c hc]

/-- What is not blank stays as it was, with the same neighbours. -/
theorem kept_collapse (text : List Char) :
    (collapse text).filter (!isBlank ·) = text.filter (!isBlank ·) ∧
    ∀ k, AdjacentAt k (collapse text) ↔ AdjacentAt k text := by
  rcases exists_split text with hblank | ⟨front, core, back, rfl, hfront, hback, hcore⟩
  · have hnone (run : List Char) (h : ∀ c ∈ run, isBlank c = true) (k : Nat) :
        AdjacentAt k run ↔ AdjacentAt k [] := by
      simpa using adjacentAt_blank_append h (s := []) k
    rw [collapse_blank hblank, filter_blank (edge_blank text), filter_blank hblank]
    exact ⟨rfl, fun k => (hnone _ (edge_blank text) k).trans (hnone _ hblank k).symm⟩
  · rw [collapse_split hfront hback hcore]
    constructor
    · simp only [List.filter_append, filter_squeeze, filter_blank hfront, filter_blank hback,
        filter_blank (edge_blank _)]
    · intro k
      rw [adjacentAt_append_blank (edge_blank back), adjacentAt_blank_append (edge_blank front),
        adjacentAt_squeeze, adjacentAt_append_blank hback, adjacentAt_blank_append hfront]

/-- What is left of the runs of blanks at the two ends. -/
theorem ends_collapse (text : List Char) :
    ((collapse text).head? = some ' ' ↔
      text.takeWhile isBlank ≠ [] ∧ '\n' ∉ text.takeWhile isBlank) ∧
    ((collapse text).getLast? = some ' ' ↔
      text.rtakeWhile isBlank ≠ [] ∧ '\n' ∉ text.rtakeWhile isBlank) := by
  rcases exists_split text with hblank | ⟨front, core, back, rfl, hfront, hback, hcore⟩
  · have hhead : (edge text ++ []).head? = some ' ' ↔ _ := head_edge_append (by decide)
    have hlast : ([] ++ edge text).getLast? = some ' ' ↔ _ := getLast_append_edge (by decide)
    rw [List.append_nil] at hhead
    rw [List.nil_append] at hlast
    rw [collapse_blank hblank, List.takeWhile_eq_self_iff.mpr hblank,
      List.rtakeWhile_eq_self_iff.mpr hblank]
    exact ⟨hhead, hlast⟩
  · have hsolid {c : Char} (hc : isBlank c = false) : some c ≠ some ' ' := by
      rintro ⟨⟩
      cases hc
    rw [collapse_split hfront hback hcore, takeWhile_split hfront hcore,
      rtakeWhile_split hback hcore]
    constructor
    · obtain ⟨c, rest, hfirst, hc⟩ := hcore.squeeze.first
      rw [List.append_assoc]
      refine head_edge_append ?_
      rw [hfirst]
      exact hsolid hc
    · obtain ⟨rest, c, hlast, hc⟩ := hcore.squeeze.last
      refine getLast_append_edge ?_
      rw [hlast, ← List.append_assoc, List.getLast?_concat]
      exact hsolid hc

theorem IsCollapsed.left {s t : List Char} (h : IsCollapsed (s ++ t)) : IsCollapsed s :=
  ⟨fun c hc => h.spaces c (List.mem_append_left t hc), h.apart.left_of_append⟩

theorem IsCollapsed.right {s t : List Char} (h : IsCollapsed (s ++ t)) : IsCollapsed t :=
  ⟨fun c hc => h.spaces c (List.mem_append_right s hc), h.apart.right_of_append⟩

/-- A run of blanks in a collapsed text is one space, if it is there. -/
theorem edge_of_collapsed (h : IsCollapsed run) (hblank : ∀ c ∈ run, isBlank c = true) :
    edge run = run := by
  cases run with
  | nil => rfl
  | cons c rest =>
    obtain ⟨hc, hrest⟩ := List.forall_mem_cons.mp hblank
    obtain rfl : c = ' ' := h.spaces c (List.mem_cons_self ..) hc
    cases rest with
    | nil => rfl
    | cons d rest =>
      rcases (List.isChain_cons.mp h.apart).1 d rfl with hno | hno
      · rw [hc] at hno
        cases hno
      · rw [hrest d (List.mem_cons_self ..)] at hno
        cases hno

/-- **Texts in normal form stay as they are.** -/
theorem collapse_of_collapsed (h : IsCollapsed s) : collapse s = s := by
  rcases exists_split s with hblank | ⟨front, core, back, rfl, hfront, hback, hcore⟩
  · rw [collapse_blank hblank, edge_of_collapsed h hblank]
  · rw [collapse_split hfront hback hcore, edge_of_collapsed h.left.left hfront,
      squeeze_of_collapsed h.left.right, edge_of_collapsed h.right hback]

/-- **Collapsing puts the white space of a text in normal form and keeps all else.** The white space
of a collapsed text is spaces, no two in a row. The characters that are not blank are those of the
text in the same order, and two of them stand side by side if and only if they did. There is a space
at the start if and only if the blanks that the text begins with, up to the first other character,
are there and have no newline among them, and so at the end; a blank text becomes one space or
nothing. Collapsing once more changes nothing. -/
theorem collapse_exact (text : List Char) :
    (∀ c ∈ collapse text, isBlank c = true → c = ' ') ∧
    ¬ [' ', ' '] <:+: collapse text ∧
    (collapse text).filter (!isBlank ·) = text.filter (!isBlank ·) ∧
    (∀ k, AdjacentAt k (collapse text) ↔ AdjacentAt k text) ∧
    ((collapse text).head? = some ' ' ↔
      text.takeWhile isBlank ≠ [] ∧ '\n' ∉ text.takeWhile isBlank) ∧
    ((collapse text).getLast? = some ' ' ↔
      text.rtakeWhile isBlank ≠ [] ∧ '\n' ∉ text.rtakeWhile isBlank) ∧
    ((∀ c ∈ text, isBlank c = true) → collapse text = [] ∨ collapse text = [' ']) ∧
    collapse (collapse text) = collapse text := by
  have hcollapsed := isCollapsed_collapse text
  obtain ⟨hfilter, hadjacent⟩ := kept_collapse text
  obtain ⟨hhead, hlast⟩ := ends_collapse text
  refine ⟨hcollapsed.spaces, fun hpair => ?_, hfilter, hadjacent, hhead, hlast, fun hblank => ?_,
    collapse_of_collapsed hcollapsed⟩
  · have hchain := List.IsChain.infix hcollapsed.apart hpair
    have hapart := List.isChain_cons_cons.mp hchain
    rw [isBlank_space] at hapart
    rcases hapart.1 with h | h <;> cases h
  · rw [collapse_blank hblank]
    exact edge_cases text

/-- A newline drops a run at the end and not one inside. -/
example : collapse " a\n \tb \n".toList = " a b".toList := by decide

end Stencil.Text
