import Stencil.Proofs.Layout.Nodes

/-!
# White space behind an opening brace

White space at the beginning of a body is plain text of its own, or the plain text that the body
begins with is longer by it; in a block either is cut off. From the closing brace on nothing is
different, which is what a seam without white space says.
-/

namespace Stencil.Source

open Text Matcher Rsx

/-- The text begins like a comment or like a fragment. -/
def BeginsHidden (u : List Char) : Prop :=
  "<!--".toList <+: u ∨ "<>".toList <+: u

instance (u : List Char) : Decidable (BeginsHidden u) :=
  inferInstanceAs (Decidable (_ ∨ _))

/-! ## Plain text -/

theorem plainLength_gap {w : List Char} (hw : IsGap w) (t : List Char) :
    plainLength (w ++ t) = w.length + plainLength t := by
  induction w with
  | nil => simp
  | cons c w ih =>
    obtain ⟨hc, hw⟩ := List.forall_mem_cons.mp hw
    have hplain : isPlain (c :: (w ++ t)) = true := by
      have hmark : ∀ d ∈ ['<', '{', '}', '"', '@'], c ≠ d := by
        rintro d hd rfl
        simp only [List.mem_cons, List.not_mem_nil, or_false] at hd
        rcases hd with rfl | rfl | rfl | rfl | rfl <;> cases hc
      simp only [List.forall_mem_cons] at hmark
      simp [isPlain, hmark]
    rw [List.cons_append, plainLength_cons, if_pos hplain, ih hw, List.length_cons]
    omega

theorem keyword_cons_none {c d : Char} {word rest : List Char}
    (h : c ≠ d ∨ keyword word rest = none) : keyword (c :: word) (d :: rest) = none := by
  unfold keyword at h ⊢
  rw [List.isPrefixOf_cons_cons, List.length_cons, List.drop_succ_cons]
  rcases h with h | h
  · simp [h]
  · have hno : ¬ (word.isPrefixOf rest && !((rest.drop word.length).head?.any isWord)) = true := by
      intro hyes
      rw [if_pos hyes] at h
      cases h
    rw [if_neg]
    intro hyes
    rw [Bool.and_assoc] at hyes
    exact hno (Bool.and_eq_true_iff.mp hyes).2

/-- No other character has an angle bracket for its small letter. -/
theorem toLower_ne {c : Char} (hc : c ≠ '<') : c.toLower ≠ '<' := by
  intro h
  unfold Char.toLower at h
  split at h
  · next hupper =>
    have hval : (c.val + ('a'.val - 'A'.val)).toNat = '<'.val.toNat :=
      congrArg (fun c => c.val.toNat) h
    have hge : 'A'.val.toNat ≤ c.val.toNat := UInt32.le_iff_toNat_le.mp hupper.1
    have hle : c.val.toNat ≤ 'Z'.val.toNat := UInt32.le_iff_toNat_le.mp hupper.2
    rw [UInt32.toNat_add] at hval
    have hoffset : ('a'.val - 'A'.val).toNat = 32 := rfl
    have hfirst : 'A'.val.toNat = 65 := rfl
    have hlast : 'Z'.val.toNat = 90 := rfl
    have hbracket : '<'.val.toNat = 60 := rfl
    omega
  · exact hc h

/-- Where plain text begins, nothing else does. -/
theorem refuses_markedChoices {inside : Matcher (List Surface)} {text : List Char}
    (h : plainLength text ≠ 0) : ∀ p ∈ markedChoices inside, p.Refuses text := by
  rcases text with _ | ⟨c, rest⟩
  · exact absurd rfl h
  have hplain : isPlain (c :: rest) = true := by
    by_contra hno
    exact h (by rw [plainLength_cons, if_neg hno])
  simp only [isPlain, Bool.and_eq_true, Bool.not_eq_true', Bool.or_eq_false_iff, beq_eq_false_iff_ne,
    Bool.and_eq_false_imp, beq_iff_eq, List.any_eq_false, Option.not_isSome_iff_eq_none] at hplain
  obtain ⟨⟨⟨⟨htag, hbrace⟩, -⟩, hquote⟩, hwords⟩ := hplain
  have hword {α : Type} (rule : Rule) {word : List Char} (hword : word ∈ controlWords)
      {f : Nat → Lexeme → Matcher α} :
      (Matcher.offset >>= fun o => token rule (keyword ('@' :: word)) >>= f o).Refuses (c :: rest) := by
    refine Refuses.offset fun _ => (Refuses.token (keyword_cons_none ?_)).bind
    by_cases hc : c = '@'
    · exact .inr (hwords hc word hword)
    · exact .inl (Ne.symm hc)
  have hdoctype : doctype (c :: rest) = none := by
    have hcase : anyCase "<!doctype".toList (c :: rest) = none := by
      simp [anyCase, toLower_ne htag]
    unfold doctype
    dsimp only
    rw [hcase]
    rfl
  -- the choices in their order: raw output and the control blocks are refused by their words, all
  -- others by their first character
  simp only [markedChoices, firstChoices, List.cons_append, List.nil_append, List.forall_mem_cons]
  refine ⟨(Refuses.token ?_).bind, (Refuses.token hdoctype).bind,
    (Refuses.scan (literal_ne (Ne.symm htag) _ _)).bind.named _, (hword _ (by simp [controlWords])).named _,
    Refuses.named _ (Refuses.all ?_), refuses_element (Ne.symm htag) rest,
    Refuses.named _ (Refuses.offset fun _ => (refuses_braced (Ne.symm hbrace) rest).bind),
    (Refuses.token (quotedText_none hquote rest)).bind, List.forall_mem_nil _⟩
  · rw [comment_eq, if_neg]
    simp [List.isPrefixOf_cons_cons, Ne.symm htag]
  · simp only [List.forall_mem_cons]
    exact ⟨(hword _ (by simp [controlWords])).named _, (hword _ (by simp [controlWords])).named _,
      (hword _ (by simp [controlWords])).named _, List.forall_mem_nil _⟩

theorem takes_plainNode {inside : Matcher (List Surface)} {s t : List Char} (hs : s ≠ [])
    (h : plainLength (s ++ t) = s.length) :
    (node inside).Takes s t fun a => ∃ l, a = .plain l ∧ l.chars = s := by
  have hlength := List.length_pos_iff.mpr hs
  rw [node_marked]
  refine Takes.named _ (Refuses.firstOf_append (refuses_markedChoices (by omega))
    (Takes.firstOf ((Takes.token ?_).map fun l hl => ⟨l, rfl, hl⟩)))
  simp only [plainText, h]
  rw [if_neg (by simpa using hs)]

namespace Seam

variable {m : Seam} {source source' : List Char} {nodes nodes' : Matcher (List Surface)}

/-! ## Seams without white space -/

theorem near_of_tail (hm : m.gap = []) {x : List Char} (hx : m.tail <:+ x) : m.Near x x := by
  obtain ⟨u, rfl⟩ := hx
  exact .inl ⟨u, .inl hm, rfl, by rw [hm, List.nil_append]⟩

theorem settled_of_near (hm : m.gap = []) {x y : List Char} (h : m.Near x y) : m.Settled x y :=
  h.settled.resolve_right fun h => h.1 hm

theorem nodesEnd_iff (hm : m.gap = []) {ss ss' : List Surface} {x y : List Char} :
    m.NodesEnd source source' ss ss' x y ↔ AlikeNodes source source' ss ss' ∧ m.Settled x y := by
  refine ⟨fun h => ?_, .inl⟩
  obtain h | ⟨hgap, -⟩ | ⟨-, hgap, -⟩ := h
  · exact h
  · exact absurd hm hgap
  · exact absurd hm hgap

theorem alike_of_nodeEnd (hm : m.gap = []) {s s' : Surface} {x y : List Char}
    (h : m.NodeEnd source source' s s' x y) : AlikeNode source source' s s' ∧ m.Near x y := by
  cases h with
  | settled h hxy => exact ⟨h, hxy.near⟩
  | one h _ hxy => exact ⟨h, hxy⟩
  | plain hgap _ => exact absurd hm hgap
  | torn h => exact absurd hm h.1

/-! ## Bodies -/

section

variable {w r : List Char} (hm : m.gap = []) (hr : m.tail <:+ r) (hw : IsGap w)
  (hnodes : Tracks 0 m.Near nodes nodes' (m.NodesEnd source source'))

include hm hr hnodes

theorem repeats_same : Repeats (node nodes) (node nodes')
    (fun ss ss' x y => AlikeNodes source source' ss ss' ∧ m.Settled x y) r r :=
  (repeats_node (tracks_node hnodes) (near_of_tail hm hr)).mono fun _ _ _ _ => (nodesEnd_iff hm).mp

/-- If neither plain text nor a comment nor a fragment comes next, it is one node in the tree. -/
theorem tracks_headNode (hplain : plainLength r = 0) (hhidden : ¬ BeginsHidden r) :
    Tracks 1 (fun x y => x = r ∧ y = r) (node nodes) (node nodes')
      fun s s' x y => OneNode s ∧ AlikeNode source source' s s' ∧ m.Near x y := by
  have hnear : ∀ x y, x = r ∧ y = r → m.Near x y := by
    rintro _ _ ⟨rfl, rfl⟩
    exact near_of_tail hm hr
  have hone {p q : Matcher Surface} (h : Tracks 1 m.Near p q fun s s' x y =>
      AlikeNode source source' s s' ∧ OneNode s ∧ m.Near x y) :
      Tracks 1 (fun x y => x = r ∧ y = r) p q
        fun s s' x y => OneNode s ∧ AlikeNode source source' s s' ∧ m.Near x y :=
    h.weaken hnear fun _ _ _ _ h => ⟨h.2.1, h.1, h.2.2⟩
  have hnone {p q : Matcher Surface} (hp : p.Refuses r) (hq : q.Refuses r) :
      Tracks 1 (fun x y => x = r ∧ y = r) p q
        fun s s' x y => OneNode s ∧ AlikeNode source source' s s' ∧ m.Near x y :=
    .of_refuses (by rintro _ _ ⟨rfl, rfl⟩; exact ⟨hp, hq⟩)
  have hcomment : comment r = none := by
    rw [comment_eq, if_neg]
    exact fun h => hhidden (.inl (List.isPrefixOf_iff_prefix.mp h))
  have hfragment : literal ['<', '>'] r = none := by
    rw [literal, if_neg]
    exact fun h => hhidden (.inr (List.isPrefixOf_iff_prefix.mp h))
  have hplain : plainText r = none := by
    simp [plainText, hplain]
  have hinside := tracks_inside hnodes
  -- a comment, a fragment and plain text are refused, so what is chosen makes one node
  refine .named _ (.firstOf ?_)
  exact .cons (hnone (Refuses.token hcomment).bind (Refuses.token hcomment).bind)
    (.cons (hone tracks_doctype) (.cons (hnone ((Refuses.scan hfragment).bind.named _)
      ((Refuses.scan hfragment).bind.named _)) (.cons (hone tracks_rawOutput)
        (.cons (hone (tracks_control (tracks_block hnodes))) (.cons (hone (tracks_element hinside))
          (.cons (tracks_splice.weaken hnear fun _ _ _ _ h => ⟨h.1, alike_of_nodeEnd hm h.2⟩)
            (.cons (hone tracks_quoted) (.cons (hnone (Refuses.token hplain).bind
              (Refuses.token hplain).bind) .nil))))))))

include hw

/-- White space in front of a body that does not begin with plain text, with a comment or with a
fragment. -/
theorem repeats_unplain (hne : w ≠ []) (hplain : plainLength r = 0) (hhidden : ¬ BeginsHidden r) :
    Repeats (node nodes) (node nodes')
      (fun ss ss' x y => AlikeBody source source' ss ss' ∧ m.Settled x y) r (w ++ r) := by
  have hrne : r ≠ [] := by
    rintro rfl
    cases List.suffix_nil.mp hr
  have hheads : Repeats (node nodes) (node nodes') (fun ss ss' x y =>
      (∀ s ∈ ss.head?, OneNode s) ∧ AlikeNodes source source' ss ss' ∧ m.Settled x y) r r := by
    refine Repeats.step (K := fun _ _ ss ss' x y => AlikeNodes source source' ss ss' ∧ m.Settled x y)
      hrne hrne (tracks_headNode hm hr hnodes hplain hhidden ⟨rfl, rfl⟩)
      ⟨nofun, alikeNodes_nil, settled_of_near hm (near_of_tail hm hr)⟩ (fun h _ _ => ?_) ?_
    · exact (repeats_node (tracks_node hnodes) h.2.2).mono fun _ _ _ _ => (nodesEnd_iff hm).mp
    · intro s s' ss ss' x y x' y' _ _ hs hrest hsuffix
      refine ⟨fun t ht => ?_, hs.2.1.cons hrest.1, hrest.2⟩
      cases ht
      exact hs.1
  refine (hheads.ahead hne (takes_plainNode hne ?_)).mono ?_
  · rw [plainLength_gap hw, hplain, Nat.add_zero]
  rintro ss _ x y ⟨_, rest, rfl, ⟨l, rfl, rfl⟩, hone, h, hxy⟩
  exact ⟨alikeBody_blank h hone fun c hc => isBlank_of_isSpace (hw c hc), hxy⟩

/-- White space in front of plain text. -/
theorem repeats_plain (hplain : plainLength r ≠ 0) : Repeats (node nodes) (node nodes')
    (fun ss ss' x y => AlikeBody source source' ss ss' ∧ m.Settled x y) r (w ++ r) := by
  obtain ⟨s, rest, rfl, hs⟩ := exists_split (plainLength_le r)
  have hne : s ≠ [] := by
    rintro rfl
    exact hplain hs.symm
  -- the tail begins with a brace, so the plain text ends in front of it
  have hrest : m.tail <:+ rest := by
    obtain ⟨t, ht⟩ := hr
    have hspans := spans_plain t m.tail isIdle_tail
    rw [ht, spaces_tail, Nat.add_zero, ← hs] at hspans
    have hle : s.length ≤ t.length := by
      have hle := plainLength_le t
      split at hspans <;> omega
    refine List.suffix_of_suffix_length_le ⟨t, ht⟩ (List.suffix_append s rest) ?_
    have hlength := congrArg List.length ht
    simp only [List.length_append] at hlength
    omega
  have htake : (node nodes').Takes (w ++ s) rest fun a => ∃ l, a = .plain l ∧ l.chars = w ++ s := by
    refine takes_plainNode (by simp [hne]) ?_
    rw [List.append_assoc, plainLength_gap hw, ← hs, List.length_append]
  rw [← List.append_assoc]
  refine ((repeats_same hm hrest hnodes).both hne (takes_plainNode hne hs.symm)
    (by simp [hne]) htake).mono ?_
  rintro _ _ x y ⟨_, ss, _, ss', rfl, rfl, ⟨l, rfl, hl⟩, ⟨l', rfl, hl'⟩, h, hxy⟩
  refine ⟨alikeBody_plain h (fun c hc => isBlank_of_isSpace (hw c hc)) ?_, hxy⟩
  rw [hl', hl]

/-- White space in front of a body makes no difference, if the body does not begin with a comment or
with a fragment. -/
theorem repeats_body (hhidden : w = [] ∨ ¬ BeginsHidden r) : Repeats (node nodes) (node nodes')
    (fun ss ss' x y => AlikeBody source source' ss ss' ∧ m.Settled x y) r (w ++ r) := by
  by_cases hne : w = []
  · rw [hne, List.nil_append]
    exact (repeats_same hm hr hnodes).mono fun _ _ _ _ h => ⟨h.1.body, h.2⟩
  by_cases hplain : plainLength r = 0
  · exact repeats_unplain hm hr hw hnodes hne hplain (hhidden.resolve_left hne)
  · exact repeats_plain hm hr hw hnodes hplain

end

end Seam

end Stencil.Source
