import Stencil.Proofs.Layout.Openings
import Stencil.Proofs.Places.Depth

/-!
# Bodies with white space around them

The text of a control block is a body with an opening in front, which ends in a brace, and a closing
behind, which begins with one (`Encloses`). White space at either brace makes no difference to the
tree, if the body does not begin or end like a comment or like a fragment there. These are no nodes
of the tree, but they are the ones whose white space is cut off.
-/

namespace Stencil.Source

open Text Matcher Rsx

/-! ## Control words -/

theorem result_firstOf_only {α : Type} {before after : List (Matcher α)} {p : Matcher α}
    {t : List Char} (hbefore : ∀ q ∈ before, q.Refuses t) (hafter : ∀ q ∈ after, q.Refuses t)
    (o : Nat) : (firstOf (before ++ p :: after) ⟨o, t⟩).result = (p ⟨o, t⟩).result := by
  induction before with
  | nil =>
    show (orElse p (firstOf after) ⟨o, t⟩).result = _
    rw [result_orElse, Refuses.all hafter o, Option.or_none]
  | cons q before ih =>
    obtain ⟨hq, hbefore⟩ := List.forall_mem_cons.mp hbefore
    show (orElse q (firstOf (before ++ p :: after)) ⟨o, t⟩).result = _
    rw [result_orElse, hq o, Option.none_or, ih hbefore]

theorem plainLength_word {word : List Char} (hword : word ∈ controlWords) {t : List Char}
    (ht : Stops isWord t) : plainLength ('@' :: (word ++ t)) = 0 := by
  rw [plainLength_cons, if_neg]
  have hsome : controlWords.any (fun word' => (keyword word' (word ++ t)).isSome) = true :=
    List.any_eq_true.mpr ⟨word, hword, by rw [keyword_append ht]; rfl⟩
  simp [isPlain, hsome]

variable {inside : Matcher (List Surface)}

/-- What begins with the word of a control block can be nothing else. -/
theorem result_node_word (c : Char) (word : List Char) {t : List Char} (hword : c :: word ∈ controlWords)
    (hraw : 'r' ≠ c) (ht : Stops isWord t) (o : Nat) :
    (node inside ⟨o, '@' :: c :: (word ++ t)⟩).result =
      ((style inside).control ⟨o, '@' :: c :: (word ++ t)⟩).result := by
  have hplain : plainText ('@' :: c :: (word ++ t)) = none := by
    simp [plainText, show plainLength ('@' :: c :: (word ++ t)) = 0 from plainLength_word hword ht]
  have hnode : node inside = named .node (firstOf ((firstChoices inside ++
      [(style inside).rawOutput]) ++ (style inside).control :: lastChoices inside)) := rfl
  rw [hnode, result_named]
  refine result_firstOf_only (List.forall_mem_append.mpr ⟨refuses_firstChoices (by simp [IsMark]) _,
    List.forall_mem_singleton.mpr (ControlStyle.refuses_rawOutput hraw _)⟩) ?_ o
  simp only [lastChoices, List.forall_mem_cons]
  exact ⟨refuses_element (by decide) _,
    Refuses.named _ (Refuses.offset fun _ => (refuses_braced (by decide) _).bind),
    (Refuses.token (quotedText_none (by decide) _)).bind,
    (Refuses.token hplain).bind, List.forall_mem_nil _⟩

theorem refuses_matchBlock {c : Char} (hc : 'm' ≠ c) (u : List Char) :
    (style inside).matchBlock.Refuses ('@' :: c :: u) := by
  refine Refuses.named _ (Refuses.offset fun _ => (Refuses.token (keyword_none ?_)).bind)
  simp [hc]

namespace Seam

variable {m : Seam} {source source' w opening : List Char} {n : Nat}

/-- Where a control block can only be one of its kind, a node is read as that. -/
theorem tracks_word (c : Char) (word : List Char) (before after : List (Matcher Surface))
    {rest : List Char} {p : Matcher Surface} (hword : c :: word ∈ controlWords) (hraw : 'r' ≠ c)
    (hrest : ∀ t, Stops isWord (rest ++ t)) (hblocks : [(style inside).ifBlock, (style inside).forBlock,
      (style inside).matchBlock] = before ++ p :: after)
    (hothers : ∀ q ∈ before ++ after, ∀ u, q.Refuses ('@' :: c :: u))
    {Q : Surface → Surface → List Char → List Char → Prop}
    (h : Tracks 1 (m.Opened w ('@' :: c :: (word ++ rest))) p p Q) :
    Tracks 1 (m.Opened w ('@' :: c :: (word ++ rest))) (node inside) (node inside) Q := by
  obtain ⟨hbefore, hafter⟩ := List.forall_mem_append.mp hothers
  have hresult (t : List Char) (o : Nat) : (node inside ⟨o, '@' :: c :: (word ++ (rest ++ t))⟩).result =
      (p ⟨o, '@' :: c :: (word ++ (rest ++ t))⟩).result := by
    rw [result_node_word c word hword hraw (hrest t), ControlStyle.control, result_named, hblocks]
    exact result_firstOf_only (fun q hq => hbefore q hq _) (fun q hq => hafter q hq _) o
  refine h.congr ?_
  rintro _ _ ⟨r, -, -, rfl, rfl⟩ o o'
  simp only [List.cons_append, List.append_assoc]
  exact ⟨hresult r o, hresult (w ++ r) o'⟩

/-- Behind the texts no node is read that would come to their ends. -/
def Stuck (n : Nat) (x y : List Char) : Prop :=
  Repeats (node (nodesWithin n)) (node (nodesWithin n)) (fun _ _ x y => x ≠ [] ∧ y ≠ []) x y

/-- No node begins with an alternative. -/
theorem stuck_else {left right head : List Char} (helse : IsAlternative left right head)
    {x y : List Char} (hxy : m.Opened w (elseOpening left right head) x y) : Stuck n x y := by
  have hplain (t : List Char) : plainLength (['@', 'e', 'l', 's', 'e'] ++ (right ++ (head ++ t))) = 0 :=
    plainLength_word (by decide) (helse.ends t)
  have hrefuses (t : List Char) : (node (nodesWithin n)).Refuses
      (['@', 'e', 'l', 's', 'e'] ++ (right ++ (head ++ t))) := by
    intro o
    refine (result_node_word 'e' ['l', 's', 'e'] (by decide) (by decide) (helse.ends t)
      o).trans ?_
    refine Refuses.named _ (Refuses.all ?_) o
    simp only [List.forall_mem_cons]
    exact ⟨ControlStyle.refuses_ifBlock (by decide) _, ControlStyle.refuses_forBlock (by decide) _,
      refuses_matchBlock (by decide) _, List.forall_mem_nil _⟩
  obtain ⟨r, -, -, rfl, rfl⟩ := hxy
  have hend : Repeats (node (nodesWithin n)) (node (nodesWithin n)) (fun _ _ x y => x ≠ [] ∧ y ≠ [])
      (['@', 'e', 'l', 's', 'e'] ++ (right ++ (head ++ r)))
      (['@', 'e', 'l', 's', 'e'] ++ (right ++ (head ++ (w ++ r)))) :=
    repeats_none (.inr (hrefuses r)) (.inr (hrefuses (w ++ r))) (by simp)
  have htext (t : List Char) : elseOpening left right head ++ t =
      left ++ (['@', 'e', 'l', 's', 'e'] ++ (right ++ (head ++ t))) := by
    simp [elseOpening]
  rw [htext, htext]
  -- white space in front of the word is plain text, which is taken before the nodes get stuck
  by_cases hnil : left = []
  · rw [hnil]
    exact hend
  have htake (t : List Char) : (node (nodesWithin n)).Takes left
      (['@', 'e', 'l', 's', 'e'] ++ (right ++ (head ++ t))) fun a => ∃ l, a = .plain l ∧ l.chars = left :=
    takes_plainNode hnil (by rw [plainLength_gap helse.isGap_left, hplain, Nat.add_zero])
  refine (hend.both hnil (htake r) hnil (htake (w ++ r))).mono ?_
  rintro _ _ x y ⟨_, _, _, _, -, -, -, -, h⟩
  exact h

end Seam

/-- The texts open and close the body of a control block: of a condition, of the alternative to one,
of a loop, or of an arm. -/
inductive Encloses : List Char → List Char → Prop
  | test {gap test : List Char} (htest : IsTest gap test) :
    Encloses (['@', 'i', 'f'] ++ (gap ++ (test ++ ['{']))) ['}']
  | other {gap test first others left right head : List Char} {body : List Node}
    (htest : IsTest gap test) (hfirst : IsBlock first body) (helse : IsAlternative left right head)
    (hothers : Precedes (fun n => (style (nodesWithin n)).elseIf) MeansBranch
      (elseOpening left right head) others) :
    Encloses (['@', 'i', 'f'] ++ (gap ++ (test ++ (first ++ (others ++
      elseOpening left right head))))) ['}']
  | loop {gap head gap' : List Char} (hhead : IsLoopHead gap head gap') :
    Encloses (['@', 'f', 'o', 'r'] ++ (gap ++ (head ++ (gap' ++ ['{'])))) ['}']
  | arm {gap subject inner arms pattern left right last : List Char} (hsubject : IsTest gap subject)
    (hinner : IsGap inner) (hpattern : IsPattern pattern left) (hright : IsGap right)
    (harms : Precedes (fun n => (style (nodesWithin n)).matchArm) MeansArm
      (armOpening pattern left right) arms) (hfirm : ∀ t, Stops isSpace (arms ++ (pattern ++ t)))
    (hlast : IsGap last) :
    Encloses (['@', 'm', 'a', 't', 'c', 'h'] ++ (gap ++ (subject ++ (['{'] ++ (inner ++
      (arms ++ armOpening pattern left right)))))) ('}' :: (last ++ ['}']))

namespace Seam

variable {m : Seam} {source source' w opening closing : List Char} {n : Nat}

variable (source source') in
/-- White space at the beginning of a body makes no difference to the control block around it. If
more has to follow than the brace, that is a match. -/
theorem tracks_opened (h : Encloses opening closing) (hm : m.gap = []) (hclosing : m.tail = closing)
    (hw : IsGap w) (hn : opening.length ≤ n) :
    Tracks 1 (m.Opened w opening) (node (nodesWithin n)) (node (nodesWithin n)) fun s s' x y =>
      (AlikeNode source source' s s' ∧ m.Near x y ∧ (m.idle ≠ [] → ∃ o l arms, s' = .cases o l arms)) ∨
        Stuck n x y := by
  have hidle (h : m.tail = ['}']) : m.idle = [] := (List.cons.inj h).2
  have hif : ∀ q ∈ [] ++ [(style (nodesWithin n)).forBlock, (style (nodesWithin n)).matchBlock],
      ∀ u, q.Refuses ('@' :: 'i' :: u) := by
    simp only [List.nil_append, List.forall_mem_cons]
    exact ⟨fun u => ControlStyle.refuses_forBlock (by decide) u,
      fun u => refuses_matchBlock (by decide) u, List.forall_mem_nil _⟩
  -- in each way to open a body the word decides which control block is tried
  cases h with
  | test htest =>
    refine tracks_word 'i' ['f'] [] _ (by decide) (by decide) ?_ rfl hif
      ((tracks_openedIf hm hw n htest).mono fun _ _ _ _ h => .inl ⟨h.1, h.2, absurd (hidle hclosing)⟩)
    · intro t
      simpa using htest.ends ('{' :: t)
  | @other gap test first others left right head _ htest hfirst helse hothers =>
    have hlength : (first ++ others).length ≤ n := by
      simp only [List.length_append] at hn ⊢
      omega
    refine tracks_word 'i' ['f'] [] _ (by decide) (by decide) ?_ rfl hif
      ((tracks_openedElse source source' hm hw n htest hfirst helse hothers hlength).mono ?_)
    · intro t
      simpa using htest.ends (first ++ (others ++ (elseOpening left right head ++ t)))
    · rintro s s' x y (h | hxy)
      · exact .inl ⟨h.1, h.2, absurd (hidle hclosing)⟩
      · exact .inr (stuck_else helse hxy)
  | @loop gap head gap' hhead =>
    refine tracks_word 'f' ['o', 'r'] [(style (nodesWithin n)).ifBlock] _ (by decide) (by decide) ?_
      rfl ?_ ((tracks_openedLoop hm hw n hhead).mono fun _ _ _ _ h =>
        .inl ⟨h.1, h.2, absurd (hidle hclosing)⟩)
    · intro t
      simpa using hhead.ends (gap' ++ '{' :: t)
    · simp only [List.cons_append, List.nil_append, List.forall_mem_cons]
      exact ⟨fun u => ControlStyle.refuses_ifBlock (by decide) u,
        fun u => refuses_matchBlock (by decide) u, List.forall_mem_nil _⟩
  | @arm gap subject inner arms pattern left right last hsubject hinner hpattern hright harms hfirm hlast =>
    have hlength : arms.length ≤ n := by
      simp only [List.length_append] at hn
      omega
    refine tracks_word 'm' ['a', 't', 'c', 'h'] [(style (nodesWithin n)).ifBlock,
      (style (nodesWithin n)).forBlock] _ (by decide) (by decide) ?_ rfl ?_
      ((tracks_openedMatch hm hw n hsubject hinner hpattern hright harms hlength hfirm).mono
        fun _ _ _ _ h => .inl ⟨h.1, h.2.1, fun _ => h.2.2⟩)
    · intro t
      simpa using hsubject.ends ('{' :: (inner ++ (arms ++ (armOpening pattern left right ++ t))))
    · simp only [List.cons_append, List.nil_append, List.forall_mem_cons]
      exact ⟨fun u => ControlStyle.refuses_ifBlock (by decide) u,
        fun u => ControlStyle.refuses_forBlock (by decide) u, List.forall_mem_nil _⟩

end Seam

namespace Encloses

variable {opening closing : List Char}

/-- The opening ends in a brace. -/
theorem exists_front (h : Encloses opening closing) : ∃ front, opening = front ++ ['{'] := by
  refine List.getLast?_eq_some_iff.mp ?_
  cases h with
  | other _ _ helse =>
    obtain rfl | ⟨_, _, -, rfl⟩ := helse.isHead <;>
      simp only [elseOpening, List.getLast?_append, List.getLast?_singleton, Option.some_or]
  | test | loop | arm =>
    simp only [armOpening, List.getLast?_append, List.getLast?_singleton, Option.some_or]

/-- The closing is a brace with nothing but white space and maybe one more brace behind. -/
theorem exists_idle (h : Encloses opening closing) :
    ∃ idle, closing = '}' :: idle ∧ IsIdle idle ∧ idle.count '}' ≤ 1 := by
  cases h with
  | test | other | loop => exact ⟨[], rfl, .nil, Nat.zero_le _⟩
  | @arm _ _ _ _ _ _ _ last _ _ _ _ _ _ hlast =>
    refine ⟨_, rfl, hlast.isIdle.append (List.forall_mem_singleton.mpr rfl), ?_⟩
    have hnone : last.count '}' = 0 := List.count_eq_zero.mpr fun hmem => by cases hlast _ hmem
    rw [List.count_append, hnone]
    exact Nat.le_refl _

end Encloses

namespace Seam

variable {m : Seam} {source source' w opening closing : List Char} {n : Nat}

variable (source source') in
/-- In a document that begins with the block. -/
theorem tracks_openedDocument (h : Encloses opening closing) (hm : m.gap = [])
    (hclosing : m.tail = closing) (hw : IsGap w) (hn : opening.length ≤ n) :
    Tracks 0 (m.Opened w opening) (document (n + 1)) (document (n + 1)) fun ss ss' _ _ =>
      AlikeNodes source source' ss ss' ∧ (m.idle ≠ [] → ∃ o l arms, .cases o l arms ∈ ss') := by
  obtain ⟨front, hfront⟩ := h.exists_front
  have hne : opening ≠ [] := by simp [hfront]
  have hnodes : Tracks 0 (m.Opened w opening) (nodesWithin (n + 1) : Matcher (List Surface))
      (nodesWithin (n + 1)) fun ss ss' x y => (x ≠ [] ∧ y ≠ []) ∨ (m.Near x y ∧
        AlikeNodes source source' ss ss' ∧ (m.idle ≠ [] → ∃ o l arms, .cases o l arms ∈ ss')) := by
    intro x y hxy
    refine (Repeats.step (K := fun x y ss ss' x' y' => (Stuck n x y ∧ x' ≠ [] ∧ y' ≠ []) ∨
      (¬ Stuck n x y ∧ m.Near x' y' ∧ AlikeNodes source source' ss ss')) (hxy.ne_nil hne).1
      (hxy.ne_nil hne).2 (tracks_opened source source' h hm hclosing hw hn hxy) (.inl (hxy.ne_nil hne))
      (fun {s s' x y} hread _ _ => ?_) ?_).many
    · by_cases hstuck : Stuck n x y
      · exact hstuck.mono fun _ _ _ _ hne => .inl ⟨hstuck, hne⟩
      · obtain ⟨-, hnear, -⟩ := hread.resolve_right hstuck
        exact (repeats_node (tracks_node (tracks_nodesWithin n)) hnear).mono fun _ _ _ _ h =>
          .inr ⟨hstuck, h.near, ((nodesEnd_iff hm).mp h).1⟩
    · rintro s s' ss ss' x y x' y' - - hread (⟨-, hne⟩ | ⟨hstuck, hnear, hrest⟩) -
      · exact .inl hne
      · obtain ⟨hnode, -, hcases⟩ := hread.resolve_right hstuck
        refine .inr ⟨hnear, hnode.cons hrest, fun hidle => ?_⟩
        obtain ⟨o, l, arms, rfl⟩ := hcases hidle
        exact ⟨o, l, arms, List.mem_cons_self ..⟩
  -- nodes that got stuck leave something behind, and then neither document ends
  refine .named _ (hnodes.bind fun ss ss' => ?_)
  rintro x y (⟨hx, hy⟩ | ⟨hxy, h⟩) o o'
  · have hnone {x : List Char} (hx : x ≠ []) : (if x.isEmpty then some 0 else none) = none := by
      simp [hx]
    exact .fail ((Refuses.token (hnone hx)).bind o) ((Refuses.token (hnone hy)).bind o')
  · refine ((tracks_end h).mono ?_) hxy.nil_iff o o'
    rintro _ _ _ _ ⟨rfl, rfl, h⟩
    exact h

end Seam

end Stencil.Source
