import Stencil.Proofs.Places.Errors

/-!
# The depth of nesting is no limit

The grammars are given a bound on the depth of nesting, which is one more than the source has
characters. No source comes near it: with any greater bound the outcome is the same, failures
included. Whatever nests stands behind a character of its own, so what is inside has less of the
source in front of it.
-/

namespace Stencil.Source

namespace Matcher

variable {α β : Type} {source : List Char} {n : Nat} {p q : Matcher α} {P : α → Prop}

/-- The matchers come to the same wherever at most so many characters of the source are left. -/
def Alike (source : List Char) (n : Nat) (p q : Matcher α) : Prop :=
  ∀ ⦃c⦄, Cursor.Sits source c → c.rest.length ≤ n → p c = q c

/-- The matcher does not succeed without reading. -/
def Consumes (source : List Char) (p : Matcher α) : Prop :=
  ∀ ⦃c⦄, Cursor.Sits source c → ∀ r ∈ (p c).result, c.offset < r.2.offset

namespace Alike

protected theorem refl (p : Matcher α) : Alike source n p p :=
  fun _ _ _ => rfl

/-- Less is left after a step than before it. -/
theorem length_le {c c' : Cursor} (hc : c.Sits source) (h : c.Reaches source c') :
    c'.rest.length ≤ c.rest.length := by
  rw [hc.length_rest, h.sits.length_rest]
  have := h.offset_le
  omega

protected theorem bind {f g : α → Matcher β} (hpq : Alike source n p q) (hp : p.Stays source P)
    (hfg : ∀ a, Alike source n (f a) (g a)) : Alike source n (p >>= f) (q >>= g) := by
  intro c hc hn
  show Matcher.bind p f c = Matcher.bind q g c
  have hresult := (hp hc).1
  unfold Matcher.bind
  rw [← hpq hc hn]
  rcases hpc : p c with ⟨_ | ⟨a, c'⟩, furthest⟩
  · rfl
  · rw [hpc] at hresult
    obtain ⟨-, hc'⟩ := hresult _ rfl
    have hrest := hfg a hc'.sits (Nat.le_trans (length_le hc hc') hn)
    dsimp only
    rw [hrest]

/-- The same first step on both sides. -/
theorem after {f g : α → Matcher β} (hp : p.Stays source P)
    (hfg : ∀ a, Alike source n (f a) (g a)) : Alike source n (p >>= f) (p >>= g) :=
  (Alike.refl p).bind hp hfg

/-- Behind a step that reads something, less is left. -/
theorem behind {f g : α → Matcher β} (hp : p.Stays source P) (hread : p.Consumes source)
    (hfg : ∀ a, Alike source n (f a) (g a)) : Alike source (n + 1) (p >>= f) (p >>= g) := by
  intro c hc hn
  show Matcher.bind p f c = Matcher.bind p g c
  have hresult := (hp hc).1
  have hless := hread hc
  unfold Matcher.bind
  rcases hpc : p c with ⟨_ | ⟨a, c'⟩, furthest⟩
  · rfl
  · rw [hpc] at hresult hless
    obtain ⟨-, hc'⟩ := hresult _ rfl
    have hlt : c.offset < c'.offset := hless _ rfl
    have hle : c'.rest.length ≤ n := by
      have hlength := hc.length_rest
      have hlength' : c'.rest.length = source.length - c'.offset := hc'.sits.length_rest
      have hoffset : c'.offset ≤ source.length := hc'.sits.offset_le
      omega
    dsimp only
    rw [hfg a hc'.sits hle]

protected theorem orElse {p' q' : Matcher α} (hp : Alike source n p p') (hq : Alike source n q q') :
    Alike source n (orElse p q) (orElse p' q') := by
  intro c hc hn
  unfold orElse
  rw [hp hc hn, hq hc hn]

protected theorem firstOf {ps qs : List (Matcher α)} (h : List.Forall₂ (Alike source n) ps qs) :
    Alike source n (firstOf ps) (firstOf qs) := by
  induction h with
  | nil => exact Alike.refl _
  | cons hp _ ih => exact hp.orElse ih

protected theorem named (rule : Rule) (h : Alike source n p q) :
    Alike source n (named rule p) (named rule q) := by
  intro c hc hn
  unfold named
  rw [h hc hn]

protected theorem optional (h : Alike source n p q) :
    Alike source n (optional p) (optional q) := by
  intro c hc hn
  unfold optional
  rw [h hc hn]

theorem manyUpTo (h : Alike source n p q) (hp : p.Stays source P) (m : Nat) :
    Alike source n (manyUpTo p m) (manyUpTo q m) := by
  induction m with
  | zero => exact Alike.refl _
  | succ m ih =>
    refine h.optional.bind hp.optional fun o => ?_
    cases o with
    | none => exact Alike.refl _
    | some a => exact ih.bind (hp.manyUpTo m) fun _ => Alike.refl _

protected theorem many (h : Alike source n p q) (hp : p.Stays source P) :
    Alike source n (many p) (many q) :=
  fun c hc hn => h.manyUpTo hp c.rest.length hc hn

/-- At the end of the source nothing is repeated. -/
theorem many_end (p q : Matcher α) : Alike source 0 (many p) (many q) := by
  intro c hc hn
  have hempty : c.rest.length = 0 := Nat.le_zero.mp hn
  unfold many
  rw [hempty]
  rfl

/-- Repeated pieces that have such pieces inside: the bound on the depth is no limit, if a piece
reads something before what is inside. -/
theorem nested (piece : Matcher (List α) → Matcher α) {g : Nat → Matcher (List α)}
    (hg : ∀ d, g (d + 1) = many (piece (g d))) (hstays : ∀ d, (piece (g d)).Stays source P)
    (hpiece : ∀ n d d', Alike source n (g d) (g d') →
      Alike source (n + 1) (piece (g d)) (piece (g d'))) :
    ∀ n d d', n < d → n < d' → Alike source n (g d) (g d') := by
  intro n
  induction n with
  | zero =>
    intro d d' hd hd'
    obtain ⟨d, rfl⟩ := Nat.exists_eq_succ_of_ne_zero (Nat.ne_of_gt hd)
    obtain ⟨d', rfl⟩ := Nat.exists_eq_succ_of_ne_zero (Nat.ne_of_gt hd')
    rw [hg, hg]
    exact many_end _ _
  | succ n ih =>
    intro d d' hd hd'
    -- each piece reads something before what is inside, so there is less left and one level less
    obtain ⟨d, rfl⟩ := Nat.exists_eq_succ_of_ne_zero (Nat.ne_zero_of_lt hd)
    obtain ⟨d', rfl⟩ := Nat.exists_eq_succ_of_ne_zero (Nat.ne_zero_of_lt hd')
    have hinner := ih d d' (Nat.lt_of_succ_lt_succ hd) (Nat.lt_of_succ_lt_succ hd')
    rw [hg, hg]
    exact (hpiece n d d' hinner).many (hstays d)

end Alike

theorem consumes_literal {c : Char} {word : List Char} :
    (scan (literal (c :: word))).Consumes source := by
  intro cursor hc r hr
  unfold scan literal at hr
  split at hr
  · cases hr
  · next n hn =>
    split at hn
    · cases hn
      cases hr
      exact Nat.lt_add_of_pos_right (Nat.succ_pos _)
    · cases hn

end Matcher

open Matcher

variable {source : List Char} {n : Nat}

/-! ## Expressions -/

theorem alike_bracketed (rule : Rule) (opening closing : Char) {body body' : Matcher Unit}
    (hs : body.StaysIn source) (h : Alike source n body body') :
    Alike source (n + 1) (bracketed rule opening closing body)
      (bracketed rule opening closing body') :=
  .named rule (.behind (stays_literal _) consumes_literal fun _ => h.bind hs fun _ => .refl _)

theorem alike_piece {inner inner' : Matcher Unit} (hs : inner.StaysIn source)
    (h : Alike source n inner inner') :
    Alike source (n + 1) (balanced.piece inner) (balanced.piece inner') :=
  .firstOf (.cons (.refl _) (.cons (alike_bracketed _ _ _ hs h) (.cons (alike_bracketed _ _ _ hs h)
    (.cons (alike_bracketed _ _ _ hs h) (.cons (.refl _) .nil)))))

/-- Balanced text nests at most as deep as there are characters left. -/
theorem alike_balanced :
    ∀ n d d', n ≤ d → n ≤ d' → Alike source n (balanced d) (balanced d') := by
  -- at the end of the source no piece is found, at whatever depth
  have hend : ∀ d, Alike source 0 (balanced d) (balanced 0) := by
    intro d c hc hn
    cases d with
    | zero => rfl
    | succ d =>
      have hmany := Alike.many_end (balanced.piece (balanced d)) Matcher.fail hc hn
      show Matcher.bind (many (balanced.piece (balanced d))) _ c = _
      unfold Matcher.bind
      rw [hmany]
      unfold many
      rw [Nat.le_zero.mp hn]
      rfl
  intro n
  induction n with
  | zero =>
    intro d d' _ _ c hc hn
    rw [hend d hc hn, hend d' hc hn]
  | succ n ih =>
    intro d d' hd hd'
    obtain ⟨d, rfl⟩ := Nat.exists_eq_succ_of_ne_zero (Nat.ne_zero_of_lt hd)
    obtain ⟨d', rfl⟩ := Nat.exists_eq_succ_of_ne_zero (Nat.ne_zero_of_lt hd')
    have hinner := ih d d' (Nat.le_of_succ_le_succ hd) (Nat.le_of_succ_le_succ hd')
    have hstays : Matcher.StaysIn source (balanced d) := stays_balanced d
    have hpiece := stays_piece hstays
    exact ((alike_piece hstays hinner).many hpiece).bind hpiece.many fun _ => .refl _

/-- The bound on the nesting of an expression is no limit, either. -/
theorem exprBody_depth {c : Cursor} (hc : c.Sits source) {depth : Nat} (h : c.rest.length ≤ depth) :
    balanced depth c = exprBody c :=
  alike_balanced _ _ _ h (Nat.le_refl _) hc (Nat.le_refl _)

/-! ## Control blocks -/

namespace ControlStyle

variable {skip : Matcher Unit} {b b' : Matcher (List Surface)}
  (hs : (⟨skip, b⟩ : ControlStyle).Sits source) (h : Alike source n b b')

include hs h

theorem alike_elseIf : Alike source n (elseIf ⟨skip, b⟩) (elseIf ⟨skip, b'⟩) := by
  refine .named _ (.after hs.skip fun _ => .after (stays_word _ _) fun _ => ?_)
  refine .after hs.skip fun _ => ?_
  refine .after (stays_word _ _) fun _ => .after hs.skip fun _ => ?_
  exact .after stays_condition fun _ => h.bind hs.block fun _ => .refl _

theorem alike_elseBlock : Alike source n (elseBlock ⟨skip, b⟩) (elseBlock ⟨skip, b'⟩) :=
  .named _ (.after hs.skip fun _ => .after (stays_word _ _) fun _ => .after hs.skip fun _ => h)

theorem alike_ifBlock : Alike source n (ifBlock ⟨skip, b⟩) (ifBlock ⟨skip, b'⟩) := by
  refine .named _ (.after Stays.offset fun _ => .after (stays_word _ _) fun _ => ?_)
  refine .after hs.skip fun _ => .after stays_condition fun _ => h.bind hs.block fun _ => ?_
  refine ((alike_elseIf hs h).many (stays_elseIf hs)).bind (stays_elseIf hs).many fun _ => ?_
  exact (alike_elseBlock hs h).optional.bind (stays_elseBlock hs).optional fun _ => .refl _

theorem alike_forBlock : Alike source n (forBlock ⟨skip, b⟩) (forBlock ⟨skip, b'⟩) := by
  refine .named _ (.after Stays.offset fun _ => .after (stays_word _ _) fun _ => ?_)
  refine .after hs.skip fun _ => ?_
  refine .after (Stays.named _ ((stays_forParen hs).orElse (stays_forPlain hs))) fun _ => ?_
  exact .after hs.skip fun _ => h.bind hs.block fun _ => .refl _

theorem alike_matchArm : Alike source n (matchArm ⟨skip, b⟩) (matchArm ⟨skip, b'⟩) := by
  have hpattern : (named .pattern (orElse
      (do let _ ← token .wildcard wildcard; return none)
      (do return some (← patternExpr))) : Matcher (Option Lexeme)).StaysIn source := by
    refine .named _ (.orElse ?_ ?_)
    · exact (Stays.token _ fits_wildcard).after fun _ => .pure trivial
    · exact stays_patternExpr.after fun _ => .pure trivial
  refine .named _ (.after hpattern fun _ => .after hs.skip fun _ => ?_)
  refine .after (stays_mark _ _) fun _ => .after hs.skip fun _ => ?_
  exact h.bind hs.block fun _ => .refl _

theorem alike_matchBlock : Alike source n (matchBlock ⟨skip, b⟩) (matchBlock ⟨skip, b'⟩) := by
  refine .named _ (.after Stays.offset fun _ => .after (stays_word _ _) fun _ => ?_)
  refine .after hs.skip fun _ => .after stays_condition fun _ => ?_
  refine .after (stays_literal _) fun _ => ?_
  refine .after hs.skip fun _ => ?_
  exact ((alike_matchArm hs h).many (stays_matchArm hs)).bind (stays_matchArm hs).many
    fun _ => .refl _

theorem alike_control : Alike source n (control ⟨skip, b⟩) (control ⟨skip, b'⟩) :=
  .named _ (.firstOf (.cons (alike_ifBlock hs h) (.cons (alike_forBlock hs h)
    (.cons (alike_matchBlock hs h) .nil))))

end ControlStyle

/-! ## The dialect of tags -/

namespace Rsx

variable {nodes nodes' : Matcher (List Surface)} (hs : nodes.Stays source (SurfaceSits source))
  (h : Alike source n nodes nodes')

include hs h

theorem alike_tagTail : Alike source (n + 1) (tagTail nodes) (tagTail nodes') :=
  .named _ (.orElse (.refl _) (.named _ (.behind (stays_literal _) consumes_literal fun _ =>
    h.bind hs fun _ => .refl _)))

theorem alike_element : Alike source (n + 1) (element nodes) (element nodes') := by
  refine .named _ (.after Stays.offset fun _ => .after (stays_literal _) fun _ => ?_)
  refine .after (Stays.token _ fits_tagName) fun _ => .after stays_oneAttribute.many fun _ => ?_
  exact .after stays_skip fun _ => (alike_tagTail hs h).bind (stays_tagTail hs) fun _ => .refl _

theorem alike_fragment : Alike source (n + 1) (fragment nodes) (fragment nodes') :=
  .named _ (.behind (stays_literal _) consumes_literal fun _ => h.bind hs fun _ => .refl _)

theorem alike_block : Alike source (n + 1) (block nodes) (block nodes') :=
  .named _ (.behind (stays_literal _) consumes_literal fun _ => h.bind hs fun _ => .refl _)

theorem alike_node : Alike source (n + 1) (node nodes) (node nodes') := by
  refine .named _ (.firstOf (.cons (.refl _) (.cons (.refl _) (.cons (alike_fragment hs h)
    (.cons (.refl _) (.cons ?_ (.cons (alike_element hs h) (.cons (.refl _) (.cons (.refl _)
      (.cons (.refl _) .nil))))))))))
  exact ControlStyle.alike_control (sits_style hs) (alike_block hs h)

omit hs h in
theorem alike_nodesWithin :
    ∀ n d d', n < d → n < d' → Alike source n (nodesWithin d) (nodesWithin d') := by
  refine Alike.nested node (fun _ => rfl) (fun d => stays_node (stays_nodesWithin d)) ?_
  intro n d d' hinner
  exact alike_node (stays_nodesWithin d) hinner

omit hs h in
theorem alike_document {d d' : Nat} (hd : source.length < d) (hd' : source.length < d') :
    Alike source source.length (document d) (document d') :=
  .named _ ((alike_nodesWithin _ d d' hd hd').bind (stays_nodesWithin d) fun _ => .refl _)

end Rsx

/-! ## The dialect of blocks -/

namespace Maud

variable {nodes nodes' : Matcher (List Surface)} (hs : nodes.Stays source (SurfaceSits source))
  (h : Alike source n nodes nodes')

include hs h

theorem alike_block : Alike source (n + 1) (block nodes) (block nodes') :=
  .named _ (.behind (stays_literal _) consumes_literal fun _ =>
    .after stays_skip fun _ => h.bind hs fun _ => .refl _)

theorem alike_element : Alike source (n + 1) (element nodes) (element nodes') := by
  refine .named _ (.after Stays.offset fun _ => .after (Stays.token _ fits_blockName) fun _ => ?_)
  refine .after stays_shorthand.many fun _ => .after stays_attributes fun _ => ?_
  refine .after stays_skip fun _ => ?_
  refine Alike.bind (.named _ (.orElse (.refl _) (alike_block hs h))) (P := SurfaceSits source)
    (.named _ (.orElse ?_ (stays_block hs))) fun _ => .refl _
  exact (stays_mark _ _).after fun _ => .pure (List.forall_mem_nil _)

theorem alike_node : Alike source (n + 1) (node nodes) (node nodes') := by
  refine .named _ (.firstOf (.cons (.refl _) (.cons (.refl _) (.cons ?_ (.cons (.refl _)
    (.cons (.refl _) (.cons (.refl _) (.cons ?_ (.cons (alike_element hs h) .nil)))))))))
  · exact ControlStyle.alike_control (sits_style hs) (alike_block hs h)
  · exact (alike_block hs h).bind (stays_block hs) fun _ => .refl _

omit hs h in
theorem alike_nodesWithin :
    ∀ n d d', n < d → n < d' → Alike source n (nodesWithin d) (nodesWithin d') := by
  refine Alike.nested (P := Surface.Sits source) (fun inside => nodesWithin.spaced (node inside))
    (fun _ => rfl) ?_ ?_
  · intro d
    refine (stays_node (stays_nodesWithin d)).bind fun _ hnode => ?_
    exact stays_skip.after fun _ => .pure hnode
  · intro n d d' hinner
    have hstays : Stays source (nodesWithin d) (SurfaceSits source) := stays_nodesWithin d
    exact (alike_node hstays hinner).bind (stays_node hstays) fun _ => .refl _

omit hs h in
theorem alike_document {d d' : Nat} (hd : source.length < d) (hd' : source.length < d') :
    Alike source source.length (document d) (document d') :=
  .named _ (.after stays_skip fun _ =>
    (alike_nodesWithin _ d d' hd hd').bind (stays_nodesWithin d) fun _ => .refl _)

end Maud

/-- **A source nests less deep than it has characters**: with any bound beyond their number the
grammar comes to the same. -/
theorem grammar_depth (dialect : Dialect) {source : List Char} {depth : Nat}
    (h : source.length < depth) :
    grammar dialect depth ⟨0, source⟩ = grammar dialect (source.length + 1) ⟨0, source⟩ := by
  have hstart := Cursor.sits_start source
  cases dialect with
  | rsx => exact Rsx.alike_document h (Nat.lt_succ_self _) hstart (Nat.le_refl _)
  | maud => exact Maud.alike_document h (Nat.lt_succ_self _) hstart (Nat.le_refl _)

end Stencil.Source
