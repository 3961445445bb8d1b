import Stencil.Proofs.Agreement.Means
import Stencil.Proofs.Grammar.LoopNames
import Stencil.Text.Collapse

/-!
# White space at the edges of a body

At the edges of a control block's body plain text is trimmed after it has been collapsed. So white
space that is put at an edge does not show, whether it extends the plain text that is there already
or stands beside another node as a plain text of its own (`sameNodes_endPadded`,
`sameNodes_startPadded`). It does show where only a comment stands between, or a fragment: these
leave no node of their own at the edge, and only one text is trimmed.
-/

namespace Stencil

open Text

/-! ## Texts -/

namespace Text

variable {s w : List Char}

theorem trimStart_blank (hw : ∀ c ∈ w, isBlank c = true) (s : List Char) :
    trimStart (w ++ s) = trimStart s := by
  rw [trimStart, trimStart, List.dropWhile_append_of_pos hw]

theorem trimEnd_blank (hw : ∀ c ∈ w, isBlank c = true) (s : List Char) :
    trimEnd (s ++ w) = trimEnd s := by
  rw [trimEnd, trimEnd, List.reverse_append, List.dropWhile_append_of_pos]
  intro c hc
  exact hw c (List.mem_reverse.mp hc)

theorem trimEnd_of_blank (hw : ∀ c ∈ w, isBlank c = true) : trimEnd w = [] := by
  have h := trimEnd_blank hw []
  rwa [List.nil_append] at h

/-- A text is blank, or its blanks in front end at a character that is not. -/
theorem blank_or_cons (s : List Char) : (∀ c ∈ s, isBlank c = true) ∨
    ∃ front c rest, s = front ++ c :: rest ∧ (∀ d ∈ front, isBlank d = true) ∧
      isBlank c = false := by
  induction s with
  | nil => exact .inl (List.forall_mem_nil _)
  | cons c s ih =>
    by_cases hc : isBlank c = true
    · rcases ih with hs | ⟨front, d, rest, rfl, hfront, hd⟩
      · exact .inl (List.forall_mem_cons.mpr ⟨hc, hs⟩)
      · exact .inr ⟨c :: front, d, rest, rfl, List.forall_mem_cons.mpr ⟨hc, hfront⟩, hd⟩
    · exact .inr ⟨[], c, s, rfl, List.forall_mem_nil _, by simpa using hc⟩

theorem trimStart_cons {c : Char} (hc : isBlank c = false) (rest : List Char) :
    trimStart (c :: rest) = c :: rest :=
  List.dropWhile_cons_of_neg (by simp [hc])

theorem trimEnd_append_cons {c : Char} (hc : isBlank c = false) (front rest : List Char) :
    trimEnd (front ++ c :: rest) = front ++ c :: trimEnd rest := by
  have hdrop : (rest.reverse ++ c :: front.reverse).dropWhile isBlank =
      rest.reverse.dropWhile isBlank ++ c :: front.reverse := by
    rw [List.dropWhile_append]
    split
    · next hempty =>
      rw [List.isEmpty_iff.mp hempty, List.dropWhile_cons_of_neg (by simp [hc]), List.nil_append]
    · rfl
  have hreverse : (front ++ c :: rest).reverse = rest.reverse ++ c :: front.reverse := by simp
  rw [trimEnd, hreverse, hdrop, trimEnd]
  simp

/-- The order in which a text is trimmed does not matter. -/
theorem trimEnd_trimStart (s : List Char) : trimEnd (trimStart s) = trimStart (trimEnd s) := by
  rcases blank_or_cons s with hs | ⟨front, c, rest, rfl, hfront, hc⟩
  · have hstart := trimStart_blank hs []
    rw [List.append_nil] at hstart
    rw [trimEnd_of_blank hs, hstart]
    rfl
  · have hend := trimEnd_append_cons hc [] rest
    rw [List.nil_append] at hend
    rw [trimStart_blank hfront, trimStart_cons hc, trimEnd_append_cons hc, trimStart_blank hfront,
      hend, List.nil_append, trimStart_cons hc]

theorem edge_blank (run : List Char) : ∀ c ∈ edge run, isBlank c = true := by
  unfold edge
  split
  · simp
  · simp
    decide

/-- White space in front of a text changes at most what is left of it at the start. -/
theorem trimStart_collapse (hw : ∀ c ∈ w, isBlank c = true) (s : List Char) :
    trimStart (collapse (w ++ s)) = trimStart (collapse s) := by
  simp only [collapse, trimStart_blank hw s, List.append_assoc, trimStart_blank (edge_blank _)]

theorem trimStart_collapse_blank (hw : ∀ c ∈ w, isBlank c = true) :
    trimStart (collapse w) = [] := by
  have h := trimStart_collapse hw []
  rwa [List.append_nil] at h

/-- White space behind a text changes at most what is left of it at the end. -/
theorem trimEnd_collapse (hw : ∀ c ∈ w, isBlank c = true) (s : List Char) :
    trimEnd (collapse (s ++ w)) = trimEnd (collapse s) := by
  have hend (s : List Char) : trimEnd (collapse s) =
      trimEnd (edge (s.takeWhile isBlank) ++ squeeze (trimEnd (trimStart s))) := by
    rw [collapse, trimEnd_blank (edge_blank _)]
  rcases blank_or_cons s with hs | ⟨front, c, rest, rfl, hfront, hc⟩
  · have hblank {s : List Char} (hs : ∀ c ∈ s, isBlank c = true) : trimEnd (collapse s) = [] := by
      rw [hend, trimEnd_trimStart, trimEnd_of_blank hs]
      exact trimEnd_of_blank (by simpa [squeeze, trimStart] using edge_blank _)
    rw [hblank hs, hblank (List.forall_mem_append.mpr ⟨hs, hw⟩)]
  · have htake (rest : List Char) : (front ++ c :: rest).takeWhile isBlank = front := by
      rw [List.takeWhile_append_of_pos hfront]
      simp [hc]
    have htrim (rest : List Char) : trimStart (front ++ c :: rest) = c :: rest := by
      rw [trimStart_blank hfront, trimStart_cons hc]
    rw [hend, hend, List.append_assoc, List.cons_append, htake, htake, htrim, htrim,
      ← List.cons_append, trimEnd_blank hw]

theorem trimEnd_collapse_blank (hw : ∀ c ∈ w, isBlank c = true) : trimEnd (collapse w) = [] := by
  have h := trimEnd_collapse hw []
  rwa [List.nil_append] at h

end Text

/-! ## Items -/

theorem mergeTexts_cons_empty (place : Option Location) (nodes : List Node) :
    mergeTexts (.text (.literal "") place :: nodes) = mergeTexts nodes := by
  simp [mergeTexts, Node.literal?, Content.literal?]

theorem mergeTexts_append_empty (place : Option Location) (nodes : List Node) :
    mergeTexts (nodes ++ [.text (.literal "") place]) = mergeTexts nodes := by
  induction nodes with
  | nil => exact mergeTexts_cons_empty place []
  | cons n rest ih =>
    rw [List.cons_append, mergeTexts, ih, mergeTexts]

/-- Only texts are merged. -/
theorem mem_mergeTexts_of_mem {n : Node} (hn : n.literal? = none) {ns : List Node} (h : n ∈ ns) :
    n ∈ mergeTexts ns :=
  (joins_mergeTexts ns).mem_of_mem hn h

/-- Merging texts keeps lists the same. -/
theorem sameNodes_mergeTexts {as bs : List Node} (h : sameNodes as bs) :
    sameNodes (mergeTexts as) (mergeTexts bs) := by
  induction as generalizing bs with
  | nil =>
    cases bs with
    | nil => exact h
    | cons b bs => simp [sameNodes] at h
  | cons a as ih =>
    cases bs with
    | nil => simp [sameNodes] at h
    | cons b bs =>
      rw [sameNodes, Bool.and_eq_true] at h
      have ih := ih h.2
      have hliteral := Node.literal?_of_same h.1
      rw [mergeTexts, mergeTexts, hliteral]
      cases hfirst : b.literal? with
      | none => simpa [sameNodes, h.1] using ih
      | some first =>
        dsimp only
        split
        · exact ih
        rcases hmerge : mergeTexts as with _ | ⟨x, xs⟩ <;>
          rcases hmerge' : mergeTexts bs with _ | ⟨y, ys⟩ <;>
          rw [hmerge, hmerge'] at ih
        · simp [sameNodes, h.1]
        · simp [sameNodes] at ih
        · simp [sameNodes] at ih
        · rw [sameNodes, Bool.and_eq_true] at ih
          dsimp only
          rw [Node.literal?_of_same ih.1]
          cases y.literal? with
          | none => simp [sameNodes, h.1, ih.1, ih.2]
          | some second => simp [sameNodes, Node.same, Content.same, ih.2]

namespace Source

/-- Items that say the same. Plain text is told apart from other texts. -/
def Item.Same : Item → Item → Prop
  | .node a, .node b => a.same b
  | .plain s _, .plain t _ => s = t
  | _, _ => False

/-- Lists of items that say the same. -/
abbrev SameItems : List Item → List Item → Prop :=
  List.Forall₂ Item.Same

theorem sameNodes_childNodes {as bs : List Item} (h : SameItems as bs) :
    sameNodes (childNodes as) (childNodes bs) := by
  refine sameNodes_mergeTexts ?_
  induction h with
  | nil => rw [List.map_nil, sameNodes]
  | @cons a b as bs hab _ ih =>
    have hsame : a.toNode.same b.toNode := by
      rcases a with a | ⟨s, _⟩ <;> rcases b with b | ⟨t, _⟩
      · exact hab
      · exact hab.elim
      · exact hab.elim
      · obtain rfl := (show s = t from hab)
        simp [Item.toNode, Node.same, Content.same]
    rw [List.map_cons, List.map_cons, sameNodes, hsame, ih]
    rfl

theorem Item.Same.trimStart {a b : Item} (h : a.Same b) : a.trimStart.Same b.trimStart := by
  rcases a with a | ⟨s, _⟩ <;> rcases b with b | ⟨t, _⟩
  · exact h
  · exact h.elim
  · exact h.elim
  · exact congrArg Text.trimStart (show s = t from h)

theorem Item.Same.trimEnd {a b : Item} (h : a.Same b) : a.trimEnd.Same b.trimEnd := by
  rcases a with a | ⟨s, _⟩ <;> rcases b with b | ⟨t, _⟩
  · exact h
  · exact h.elim
  · exact h.elim
  · exact congrArg Text.trimEnd (show s = t from h)

theorem SameItems.trimFirst {as bs : List Item} (h : SameItems as bs) :
    SameItems (trimFirst as) (trimFirst bs) := by
  cases h with
  | nil => exact .nil
  | cons hab h => exact .cons hab.trimStart h

theorem SameItems.trimLast {as bs : List Item} (h : SameItems as bs) :
    SameItems (trimLast as) (trimLast bs) := by
  induction h with
  | nil => exact .nil
  | cons hab h ih =>
    cases h with
    | nil => exact .cons hab.trimEnd .nil
    | cons h h' => exact .cons hab ih

theorem sameNodes_blockNodes {as bs : List Item} (h : SameItems as bs) :
    sameNodes (blockNodes as) (blockNodes bs) :=
  sameNodes_childNodes h.trimFirst.trimLast

/-! ### White space at the end -/

/-- The second list has blanks at its end that the first one has not: they extend the plain text
there, or they are a plain text behind another node. -/
inductive EndPadded : List Item → List Item → Prop
  | alone {b : List Char} (place : Option Location) (hb : trimEnd b = []) :
      EndPadded [] [.plain b place]
  | behind {n n' : Node} {b : List Char} (place : Option Location) (h : n.same n')
      (hb : trimEnd b = []) : EndPadded [.node n] [.node n', .plain b place]
  | plain {s t : List Char} (place place' : Option Location) (h : trimEnd s = trimEnd t) :
      EndPadded [.plain s place] [.plain t place']
  | cons {a b : Item} {as bs : List Item} (hab : a.Same b) (hne : as ≠ []) (h : EndPadded as bs) :
      EndPadded (a :: as) (b :: bs)

theorem EndPadded.ne_nil {as bs : List Item} (h : EndPadded as bs) : bs ≠ [] := by
  cases h <;> simp

theorem EndPadded.append {as bs cs ds : List Item} (h : SameItems as bs) (hne : cs ≠ [])
    (hcd : EndPadded cs ds) : EndPadded (as ++ cs) (bs ++ ds) := by
  induction h with
  | nil => exact hcd
  | cons hab _ ih => exact .cons hab (by simp [hne]) ih

theorem EndPadded.trimFirst {as bs : List Item} (h : EndPadded as bs) :
    EndPadded (trimFirst as) (trimFirst bs) := by
  cases h with
  | alone place hb => exact .alone place (by rw [trimEnd_trimStart, hb]; rfl)
  | behind place h hb => exact .behind place h hb
  | plain place place' h =>
    exact .plain place place' (by rw [trimEnd_trimStart, trimEnd_trimStart, h])
  | cons hab hne h => exact .cons hab.trimStart hne h

/-- Once the last item is trimmed, at most an empty text is left over. -/
theorem EndPadded.trimLast {as bs : List Item} (h : EndPadded as bs) : ∃ cs,
    SameItems (trimLast as) cs ∧ (trimLast bs = cs ∨ ∃ place, trimLast bs = cs ++ [.plain [] place]) := by
  induction h with
  | @alone b place hb =>
    exact ⟨[], .nil, .inr ⟨place, by simp [Source.trimLast, Item.trimEnd, hb]⟩⟩
  | @behind n n' b place h hb =>
    exact ⟨[.node n'], .cons h .nil, .inr ⟨place, by simp [Source.trimLast, Item.trimEnd, hb]⟩⟩
  | @plain s t place place' h =>
    have hsame : (Item.plain s place).trimEnd.Same (Item.plain t place').trimEnd := h
    exact ⟨_, .cons hsame .nil, .inl rfl⟩
  | @cons a b as bs hab hne h ih =>
    obtain ⟨cs, hcs, htrim⟩ := ih
    obtain ⟨c, as, rfl⟩ := List.exists_cons_of_ne_nil hne
    obtain ⟨d, bs, rfl⟩ := List.exists_cons_of_ne_nil h.ne_nil
    refine ⟨b :: cs, .cons hab hcs, htrim.imp (fun h => ?_) fun ⟨place, h⟩ => ⟨place, ?_⟩⟩
    · exact congrArg (b :: ·) h
    · exact congrArg (b :: ·) h

theorem childNodes_append_empty (as : List Item) (place : Option Location) :
    childNodes (as ++ [.plain [] place]) = childNodes as := by
  rw [childNodes, List.map_append]
  exact mergeTexts_append_empty place _

/-- **White space at the end of a body does not show.** -/
theorem sameNodes_endPadded {as bs : List Item} (h : EndPadded as bs) :
    sameNodes (blockNodes as) (blockNodes bs) := by
  obtain ⟨cs, hcs, htrim⟩ := h.trimFirst.trimLast
  have hsame := sameNodes_childNodes hcs
  rcases htrim with htrim | ⟨place, htrim⟩
  · rw [blockNodes, blockNodes, htrim]
    exact hsame
  · rw [blockNodes, blockNodes, htrim, childNodes_append_empty]
    exact hsame

/-! ### White space at the start -/

/-- The second list has blanks at its start that the first one has not: they extend the plain text
there, or they are a plain text in front of another node. -/
inductive StartPadded : List Item → List Item → Prop
  | alone {b : List Char} (place : Option Location) (hb : trimStart b = []) :
      StartPadded [] [.plain b place]
  | before {n n' : Node} {b : List Char} {as bs : List Item} (place : Option Location)
      (hb : trimStart b = []) (hn : n.same n') (h : SameItems as bs) :
      StartPadded (.node n :: as) (.plain b place :: .node n' :: bs)
  | plain {s t : List Char} {as bs : List Item} (place place' : Option Location)
      (hst : trimStart s = trimStart t) (h : SameItems as bs) :
      StartPadded (.plain s place :: as) (.plain t place' :: bs)

theorem childNodes_cons_empty (place : Option Location) (as : List Item) :
    childNodes (.plain [] place :: as) = childNodes as :=
  mergeTexts_cons_empty place _

/-- **White space at the start of a body does not show.** -/
theorem sameNodes_startPadded {as bs : List Item} (h : StartPadded as bs) :
    sameNodes (blockNodes as) (blockNodes bs) := by
  cases h with
  | @alone b place hb =>
    have hblock : blockNodes [.plain b place] = childNodes [.plain [] place] := by
      rw [blockNodes, trimFirst, Item.trimStart, hb]
      rfl
    rw [hblock, childNodes_cons_empty]
    rfl
  | @before n n' b as bs place hb hn h =>
    have hblock : blockNodes (.plain b place :: .node n' :: bs) =
        childNodes (trimLast (.node n' :: bs)) := by
      rw [blockNodes, trimFirst, Item.trimStart, hb, trimLast, childNodes_cons_empty]
      simp
    rw [hblock]
    exact sameNodes_childNodes (SameItems.trimLast (.cons hn h))
  | @plain s t as bs place place' hst h =>
    have hsame : (Item.plain s place).trimStart.Same (Item.plain t place').trimStart := hst
    exact sameNodes_childNodes (SameItems.trimLast (.cons hsame h))

end Source

end Stencil
