import Stencil.Proofs.Agreement.Rsx
import Stencil.Proofs.Layout.Controls

/-!
# Nodes in front of a closing brace

A list of nodes that comes to the brace ends in white space on the one side: plain text is longer by
it, or it is plain text of its own (`NodesEnd`). In a block it is cut off. Elsewhere more has to
follow than the brace, so the white space has been inside something before.
-/

namespace Stencil.Source

open Text Matcher Rsx

/-! ## The choices for a node -/

/-- All choices but plain text. -/
def markedChoices (inside : Matcher (List Surface)) : List (Matcher Surface) :=
  firstChoices inside ++ [(style inside).rawOutput, (style inside).control, element inside,
    named .dynamicText do
      let offset ← Matcher.offset
      return .splice offset (← braced),
    quoted]

theorem node_marked (inside : Matcher (List Surface)) : node inside = named .node (firstOf
    (markedChoices inside ++ [do return .plain (← token .bareText plainText)])) :=
  rfl

theorem shuns_markedChoices (inside : Matcher (List Surface)) :
    ∀ p ∈ markedChoices inside, p.Shuns := by
  have hword {α : Type} (rule : Rule) {word : List Char} {f : Nat → Lexeme → Matcher α}
      (hword : IsBusy ('@' :: word)) :
      (Matcher.offset >>= fun o => token rule (keyword ('@' :: word)) >>= f o).Shuns :=
    Shuns.offset fun _ => ((shuns_keyword hword).named _).bind
  simp only [markedChoices, firstChoices, List.cons_append, List.nil_append, List.forall_mem_cons]
  refine ⟨((shuns_scan comment_ignores rfl).named _).bind,
    ((shuns_scan doctype_ignores rfl).named _).bind, (shuns_literal (by decide)).bind.named _,
    (hword _ (by decide)).named _, Shuns.named _ (Shuns.firstOf ?_),
    (Shuns.offset fun _ => (shuns_literal (by decide)).bind).named _,
    (Shuns.offset fun _ => ((shuns_literal (by decide)).bind.named _).bind).named _,
    ((shuns_scan quotedText_ignores rfl).named _).bind, List.forall_mem_nil _⟩
  simp only [List.forall_mem_cons]
  exact ⟨(hword _ (by decide)).named _, (hword _ (by decide)).named _, (hword _ (by decide)).named _,
    List.forall_mem_nil _⟩

namespace Seam

variable {m : Seam} {source source' : List Char} {nodes nodes' : Matcher (List Surface)}

/-- How a node may end: the white space does not come next, or the node is one node in the tree, or
it is plain text that goes on over the white space, or it is an expression that has taken the brace
behind. -/
inductive NodeEnd (m : Seam) (source source' : List Char) :
    Surface → Surface → List Char → List Char → Prop
  | settled {s s' : Surface} {x y : List Char} (h : AlikeNode source source' s s')
    (hxy : m.Settled x y) : NodeEnd m source source' s s' x y
  | one {s s' : Surface} {x y : List Char} (h : AlikeNode source source' s s') (hs : OneNode s)
    (hxy : m.Near x y) : NodeEnd m source source' s s' x y
  | plain (hgap : m.gap ≠ []) {l l' : Lexeme} (hl : l'.chars = l.chars ++ m.gap) :
    NodeEnd m source source' (.plain l) (.plain l') m.tail m.tail
  | torn {o : Nat} {l : Lexeme} {s' : Surface} {x y : List Char} (h : m.Torn x y) :
    NodeEnd m source source' (.splice o l) s' x y

/-- How a list of nodes may end: the white space does not come next, or it is at the end of the
second list, or an expression has taken the brace behind. -/
def NodesEnd (m : Seam) (source source' : List Char) (ss ss' : List Surface) (x y : List Char) :
    Prop :=
  (AlikeNodes source source' ss ss' ∧ m.Settled x y) ∨
    (m.gap ≠ [] ∧ AlikePadded source source' ss ss' ∧ x = m.tail ∧ y = m.tail) ∨
      ((∃ o l, .splice o l ∈ ss) ∧ m.Torn x y)

/-! ## Nodes -/

theorem absorbs_node : m.Absorbs (node nodes) (node nodes')
    fun s => ∃ l, s = .plain l ∧ l.chars = m.gap := by
  have h := absorbs_choices (m := m) .bareText isSpan_plainText Surface.plain Surface.plain
    (shuns_markedChoices nodes) (shuns_markedChoices nodes')
  rw [node_marked, node_marked]
  exact ⟨h.refuses.named _, h.refuses'.named _, fun hgap => (h.takes hgap).named _⟩

theorem tracks_doctype : Tracks 1 m.Near
    (do return Surface.doctype (← token .doctype doctype).offset)
    (do return Surface.doctype (← token .doctype doctype).offset)
    fun s s' x y => AlikeNode source source' s s' ∧ OneNode s ∧ m.Near x y := by
  refine Tracks.map (.named _ (tracks_scan doctype_ignores fits_doctype ?_))
    fun l l' x y h => ⟨alike_doctype l.offset l'.offset, oneNode_doctype l.offset, h.2.2.1⟩
  intro text k h
  unfold doctype at h
  simp only [Option.bind_eq_bind, Option.bind_eq_some_iff] at h
  obtain ⟨_, -, _, -, _, -, h⟩ := h
  split at h
  · obtain rfl := Option.some.inj h
    omega
  · cases h

theorem tracks_quoted : Tracks 1 m.Near quoted quoted
    fun s s' x y => AlikeNode source source' s s' ∧ OneNode s ∧ m.Near x y := by
  refine Tracks.map (.named _ (tracks_scan quotedText_ignores fits_quotedText ?_))
    fun l l' x y h => ⟨alike_quoted h.1, oneNode_quoted l, h.2.2.1⟩
  intro text k h
  unfold quotedText at h
  split at h
  · obtain ⟨i, -, rfl⟩ := Option.map_eq_some_iff.mp h
    omega
  · cases h

theorem tracks_splice : Tracks 1 m.Near
    (named .dynamicText do
      let offset ← Matcher.offset
      return Surface.splice offset (← braced))
    (named .dynamicText do
      let offset ← Matcher.offset
      return Surface.splice offset (← braced))
    fun s s' x y => OneNode s ∧ m.NodeEnd source source' s s' x y := by
  refine .named _ (.after .offset fun offset offset' => tracks_braced.map ?_)
  rintro l l' x y ⟨hxy, h⟩
  have hone := oneNode_splice offset l
  rcases h with h | h
  · exact ⟨hone, .one (h.splice offset offset') hone hxy⟩
  · exact ⟨hone, .torn h⟩

theorem tracks_plain : Tracks 1 m.Settled (do return Surface.plain (← token .bareText plainText))
    (do return Surface.plain (← token .bareText plainText)) (m.NodeEnd source source') := by
  refine Tracks.map (.named _ (tracks_span isSpan_plainText)) ?_
  rintro l l' x y ⟨hxy, h | ⟨rfl, rfl, h⟩⟩
  · exact .settled (alike_plain h) hxy
  by_cases hgap : m.gap = []
  · rw [hgap, List.append_nil] at h
    exact .settled (alike_plain h.symm) hxy
  · exact .plain hgap h

theorem NodeEnd.near {s s' : Surface} {x y : List Char} (h : m.NodeEnd source source' s s' x y) :
    m.Near x y := by
  cases h with
  | settled _ hxy => exact hxy.near
  | one _ _ hxy => exact hxy
  | plain => exact settled_tail.near
  | torn h => exact h.near

/-- How the body of a block may end: it says the same, or an expression has taken the brace that
closes the block. -/
def BodyEnd (m : Seam) (source source' : List Char) (b b' : List Surface) (x y : List Char) : Prop :=
  (AlikeBody source source' b b' ∧ m.Settled x y) ∨ m.Torn x y

theorem NodesEnd.body {ss ss' : List Surface} {x y : List Char}
    (h : m.NodesEnd source source' ss ss' x y) : m.BodyEnd source source' ss ss' x y := by
  obtain ⟨h, hxy⟩ | ⟨-, h, rfl, rfl⟩ | ⟨-, h⟩ := h
  · exact .inl ⟨h.body, hxy⟩
  · exact .inl ⟨h.body, settled_tail⟩
  · exact .inr h

theorem NodesEnd.near {ss ss' : List Surface} {x y : List Char}
    (h : m.NodesEnd source source' ss ss' x y) : m.Near x y := by
  obtain ⟨-, hxy⟩ | ⟨-, -, rfl, rfl⟩ | ⟨-, h⟩ := h
  · exact hxy.near
  · exact settled_tail.near
  · exact h.near

theorem tracks_bodyEnd {b b' : List Surface} : Tracks 0 (m.BodyEnd source source' b b')
    (do let _ ← closeBrace; return b) (do let _ ← closeBrace; return b')
    fun b b' x y => AlikeBody source source' b b' ∧ m.Near x y := by
  rintro x y (⟨h, hxy⟩ | ⟨-, -, rfl, -, hbrace⟩) o o'
  · exact Tracks.map (R := fun b b' x y => AlikeBody source source' b b' ∧ m.Near x y)
      (.named _ tracks_brace.relax) (fun _ _ _ _ hxy => ⟨h, hxy⟩) hxy o o'
  · have hnone : literal ['}'] x = none := by
      cases x with
      | nil => rfl
      | cons c x => exact literal_ne (List.ne_of_not_mem_cons hbrace) _ _
    exact .fail ((Refuses.token hnone).bind o) ((Refuses.token hnone).bind o')

variable (hnodes : Tracks 0 m.Near nodes nodes' (m.NodesEnd source source'))

include hnodes

/-- Where more has to follow, the nodes are alike. -/
theorem tracks_inside : Tracks 0 m.Near nodes nodes' (m.Agrees (AlikeNodes source source')) := by
  refine hnodes.mono fun ss ss' x y h => ⟨h.near, ?_⟩
  obtain ⟨h, -⟩ | ⟨-, -, rfl, -⟩ | ⟨-, h⟩ := h
  · exact .inr h
  · exact .inl isIdle_tail
  · exact .inl h.isIdle

/-- In a block the nodes say the same. -/
theorem tracks_block : Tracks 1 m.Near (block nodes) (block nodes')
    fun b b' x y => AlikeBody source source' b b' ∧ m.Near x y := by
  refine .named _ ((tracks_literal (by decide)).bind fun _ _ => ?_)
  exact (hnodes.mono fun _ _ _ _ h => h.body).bind fun _ _ => tracks_bodyEnd

theorem tracks_node : Tracks 1 m.Settled (node nodes) (node nodes') (m.NodeEnd source source') := by
  have hone {p q : Matcher Surface} (h : Tracks 1 m.Near p q fun s s' x y =>
      AlikeNode source source' s s' ∧ OneNode s ∧ m.Near x y) :
      Tracks 1 m.Settled p q (m.NodeEnd source source') :=
    h.weaken (fun _ _ h => h.near) fun _ _ _ _ h => .one h.1 h.2.1 h.2.2
  have hsettled {p q : Matcher Surface} (h : Tracks 1 m.Near p q fun s s' x y =>
      AlikeNode source source' s s' ∧ m.Settled x y) :
      Tracks 1 m.Settled p q (m.NodeEnd source source') :=
    h.weaken (fun _ _ h => h.near) fun _ _ _ _ h => .settled h.1 h.2
  refine .named _ (.firstOf ?_)
  exact .cons (hsettled tracks_comment) (.cons (hone tracks_doctype)
    (.cons (hsettled (tracks_fragment (tracks_inside hnodes))) (.cons (hone tracks_rawOutput)
      (.cons (hone (tracks_control (tracks_block hnodes)))
        (.cons (hone (tracks_element (tracks_inside hnodes)))
          (.cons (tracks_splice.weaken (fun _ _ h => h.near) fun _ _ _ _ h => h.2) (.cons (hone tracks_quoted)
            (.cons tracks_plain .nil))))))))

/-! ## Lists of nodes -/

omit hnodes

/-- How a list of nodes may end that has begun at some place. Where there is nothing but the white
space, it is all that there is on the one side. -/
inductive ListEnd (m : Seam) (source source' : List Char) (x y : List Char) :
    List Surface → List Surface → List Char → List Char → Prop
  | alike {ss ss' : List Surface} {x' y' : List Char} (h : AlikeNodes source source' ss ss')
    (hxy : m.Settled x' y') : ListEnd m source source' x y ss ss' x' y'
  | blank (hgap : m.gap ≠ []) {l : Lexeme} (hl : l.chars = m.gap) (hxy : ¬ m.Settled x y) :
    ListEnd m source source' x y [] [.plain l] m.tail m.tail
  | padded {ss ss' : List Surface} (hgap : m.gap ≠ []) (hne : ss ≠ []) (h : AlikePadded source source' ss ss') :
    ListEnd m source source' x y ss ss' m.tail m.tail
  | torn {ss ss' : List Surface} {o : Nat} {l : Lexeme} {x' y' : List Char}
    (hmem : .splice o l ∈ ss) (h : m.Torn x' y') : ListEnd m source source' x y ss ss' x' y'

theorem isBlank_gap : ∀ c ∈ m.gap, isBlank c = true :=
  fun c hc => isBlank_of_isSpace (m.isGap_gap c hc)

theorem not_settled_gap (h : m.gap ≠ []) : ¬ m.Settled m.tail (m.gap ++ m.tail) := by
  rintro (⟨u, hne, -, hu, -⟩ | ⟨heq, -⟩)
  · exact hne (List.self_eq_append_left.mp hu)
  · exact h (List.self_eq_append_left.mp heq)

/-- Where the list begins at the brace, it is empty. -/
def StopsAt (m : Seam) (x : List Char) (ss : List Surface) (x' : List Char) : Prop :=
  x = m.tail → ss = [] ∧ x' = x

theorem ListEnd.near {ss ss' : List Surface} {x y x' y' : List Char}
    (h : m.ListEnd source source' x y ss ss' x' y') : m.Near x' y' := by
  cases h with
  | alike _ hxy => exact hxy.near
  | blank | padded => exact settled_tail.near
  | torn _ h => exact h.near

theorem Torn.of_suffix {x y x' y' : List Char} (h : m.Torn x y) (hsuffix : x' <:+ x)
    (hnear : m.Near x' y') : m.Torn x' y' := by
  obtain ⟨hgap, hne, rfl, hidle, hbrace⟩ := h
  have hbrace' : '}' ∉ x' := fun hmem => hbrace (hsuffix.mem hmem)
  rcases hnear with ⟨u, -, rfl, -⟩ | ⟨rfl, -⟩
  · simp [tail] at hbrace'
  · exact ⟨hgap, hne, rfl, hsuffix.trans hidle, hbrace'⟩

theorem listEnd_cons {s s' : Surface} {ss ss' : List Surface} {x y x' y' x'' y'' : List Char}
    (h : m.NodeEnd source source' s s' x' y')
    (hrest : m.ListEnd source source' x' y' ss ss' x'' y'') (hx : m.StopsAt x' ss x'')
    (hy : m.StopsAt y' ss' y'') (hsuffix : x'' <:+ x') :
    m.ListEnd source source' x y (s :: ss) (s' :: ss') x'' y'' := by
  -- what is known of the first nodes and of those behind them, case by case; the white space is
  -- added once, so the cases in which it would be added twice cannot be
  cases h with
  | settled h hxy =>
    cases hrest with
    | alike hrest hxy => exact .alike (h.cons hrest) hxy
    | blank _ _ hno => exact absurd hxy hno
    | padded hgap hne hrest => exact .padded hgap (List.cons_ne_nil _ _) (h.padded hne hrest)
    | torn hmem h => exact .torn (List.mem_cons_of_mem _ hmem) h
  | one h hs hxy =>
    cases hrest with
    | alike hrest hxy => exact .alike (h.cons hrest) hxy
    | blank hgap hl _ =>
      exact .padded hgap (List.cons_ne_nil _ _) (h.padded_alone hs (hl ▸ isBlank_gap))
    | padded hgap hne hrest => exact .padded hgap (List.cons_ne_nil _ _) (h.padded hne hrest)
    | torn hmem h => exact .torn (List.mem_cons_of_mem _ hmem) h
  | plain hgap hl =>
    obtain ⟨rfl, rfl⟩ := hx rfl
    obtain ⟨rfl, rfl⟩ := hy rfl
    exact .padded hgap (List.cons_ne_nil _ _) (alikePadded_plain isBlank_gap hl)
  | torn h => exact .torn (List.mem_cons_self ..) (h.of_suffix hsuffix hrest.near)

theorem repeats_node (h : Tracks 1 m.Settled (node nodes) (node nodes') (m.NodeEnd source source'))
    {x y : List Char} (hxy : m.Near x y) :
    Repeats (node nodes) (node nodes') (m.NodesEnd source source') x y := by
  refine (repeats_absorbing (J := fun x y ss ss' x' y' =>
    m.ListEnd source source' x y ss ss' x' y' ∧ m.StopsAt x ss x' ∧ m.StopsAt y ss' y')
    (h.narrow fun _ _ h => h.1) (fun _ _ _ _ h => h.near) absorbs_node ?_ ?_ ?_
    ⟨hxy, Nat.le_refl _, Nat.le_refl _⟩).mono ?_
  · exact fun x y hxy => ⟨.alike alikeNodes_nil hxy, fun _ => ⟨rfl, rfl⟩, fun _ => ⟨rfl, rfl⟩⟩
  · rintro _ hgap ⟨l, rfl, hl⟩
    refine ⟨.blank hgap hl (not_settled_gap hgap), fun _ => ⟨rfl, rfl⟩, fun h => ?_⟩
    exact absurd (List.self_eq_append_left.mp h.symm) hgap
  · intro s s' ss ss' x y x' y' x'' y'' hx hy hnode hrest hsuffix
    exact ⟨listEnd_cons hnode hrest.1 hrest.2.1 hrest.2.2 hsuffix, fun h => absurd h hx,
      fun h => absurd h hy⟩
  · rintro ss ss' x' y' ⟨h, -, -⟩
    cases h with
    | alike h hxy => exact .inl ⟨h, hxy⟩
    | blank hgap hl _ =>
      exact .inr (.inl ⟨hgap, alikePadded_alone (hl ▸ isBlank_gap), rfl, rfl⟩)
    | padded hgap _ h => exact .inr (.inl ⟨hgap, h, rfl, rfl⟩)
    | torn hmem h => exact .inr (.inr ⟨⟨_, _, hmem⟩, h⟩)

/-- **White space in front of the brace makes no difference** to a list of nodes but at its end. -/
theorem tracks_nodesWithin (n : Nat) : Tracks 0 m.Near (nodesWithin n : Matcher (List Surface))
    (nodesWithin n) (m.NodesEnd source source') := by
  induction n with
  | zero => exact fun _ _ _ _ _ => .fail rfl rfl
  | succ n ih => exact fun _ _ hxy => (repeats_node (tracks_node ih) hxy).many

/-! ## Documents -/

theorem tracks_end {E : Prop} {ss ss' : List Surface} (h : E) :
    Tracks 0 (fun x y => x = [] ↔ y = []) (do let _ ← endOfInput; return ss)
      (do let _ ← endOfInput; return ss') fun a b _ _ => a = ss ∧ b = ss' ∧ E :=
  tracks_endOfInput.map fun _ _ _ _ _ => ⟨rfl, rfl, h⟩

variable (source source') in
/-- A document says the same, unless an expression has taken the brace behind. -/
theorem tracks_document (depth : Nat) : Tracks 0 m.Near (document depth) (document depth)
    fun ss ss' _ _ => AlikeNodes source source' ss ss' ∨ ((∃ o l, .splice o l ∈ ss) ∧ m.idle ≠ []) := by
  have hnodes : Tracks 0 m.Near (nodesWithin depth : Matcher (List Surface)) (nodesWithin depth)
      (m.NodesEnd source source') := tracks_nodesWithin depth
  refine .named _ (hnodes.bind fun ss ss' => ?_)
  rintro x y (⟨h, hxy⟩ | ⟨-, -, rfl, rfl⟩ | ⟨hmem, -, hne, rfl, -⟩) o o'
  · refine ((tracks_end h).mono ?_) hxy.near.nil_iff o o'
    rintro _ _ _ _ ⟨rfl, rfl, h⟩
    exact .inl h
  · have hnone : (if m.tail.isEmpty then some 0 else none) = none := rfl
    exact .fail ((Refuses.token hnone).bind o) ((Refuses.token hnone).bind o')
  · have hend : (∃ o l, .splice o l ∈ ss) ∧ m.idle ≠ [] := ⟨hmem, hne⟩
    refine ((tracks_end hend).mono ?_) Iff.rfl o o'
    rintro _ _ _ _ ⟨rfl, rfl, h⟩
    exact .inr h

end Seam

end Stencil.Source
