import Stencil.Proofs.Layout.Pieces
import Stencil.Source.Rsx

/-!
# Tags in front of a closing brace

What stands in a tag is followed by more of the tag, so an expression that has come past the brace
has no tag around it. A comment and a fragment are read as no nodes of their own: where they stand
last, no white space follows (`Seam.Allows`), and what comes behind them is settled.
-/

namespace Stencil.Source

open Text Matcher Rsx

/-- A comment ends where it is closed. -/
theorem comment_ends {text : List Char} {n : Nat} (h : comment text = some n) :
    "-->".toList <:+ text.take n := by
  have hrest : ∀ {rest : List Char} {n : Nat}, commentRest rest = some n →
      "-->".toList <:+ rest.take n := by
    intro rest
    induction rest with
    | nil => nofun
    | cons c rest ih =>
      intro n h
      rw [commentRest_cons] at h
      split at h
      · next hclosed =>
        cases h
        have hword := List.prefix_iff_eq_take.mp (List.isPrefixOf_iff_prefix.mp hclosed)
        exact hword ▸ List.suffix_refl _
      · obtain ⟨k, hk, rfl⟩ := Option.map_eq_some_iff.mp h
        rw [List.take_succ_cons]
        exact (ih hk).trans (List.suffix_cons _ _)
  rw [comment_eq] at h
  split at h
  · obtain ⟨k, hk, rfl⟩ := Option.map_eq_some_iff.mp h
    rw [Nat.add_comm, List.take_add]
    exact (hrest hk).trans (List.suffix_append _ _)
  · cases h

namespace Seam

variable {m : Seam} (source source' : List Char) {nodes nodes' : Matcher (List Surface)}

theorem tracks_skip : Tracks 0 m.Near skip skip fun _ _ => m.Settled :=
  tracks_spaces.map fun _ _ _ _ h => h

theorem tracks_bracedValue : Tracks 0 m.Near braced braced (m.Agrees SameCode) :=
  tracks_braced.relax.mono fun _ _ _ _ h => ⟨h.1, h.2.symm.imp_left Torn.isIdle⟩

/-! ## Attributes -/

theorem tracks_toggle : Tracks 0 m.Near attributeToggle attributeToggle
    (m.Agrees (AlikeValue source source')) := by
  refine .named _ (tracks_skip.bind fun _ _ => ?_)
  refine ((tracks_literal (by decide)).relax.narrow fun _ _ h => h.near).bind
    fun _ _ => tracks_skip.bind fun _ _ => ?_
  exact (tracks_bracedValue.narrow fun _ _ h => h.near).map
    fun _ _ _ _ h => h.mono fun _ _ h => h.toggle

theorem tracks_quotedValue {rule : Rule} {mark : Char} (hmark : isIdle mark = false)
    {f : Lexeme → SurfaceValue}
    (hf : ∀ l l' : Lexeme, l.chars = l'.chars → AlikeValue source source' (f l) (f l')) :
    Tracks 0 m.Near (do return f (← token rule (between mark)))
      (do return f (← token rule (between mark))) (m.Agrees (AlikeValue source source')) :=
  Tracks.map (.named _ (tracks_same (between_ignores hmark) (fits_between mark)))
    fun _ _ _ _ h => ⟨h.2, .inr (hf _ _ h.1)⟩

theorem tracks_assign : Tracks 0 m.Near attributeAssign attributeAssign
    (m.Agrees (AlikeValue source source')) := by
  refine .named _ (tracks_skip.bind fun _ _ => ?_)
  refine ((tracks_literal (by decide)).relax.narrow fun _ _ h => h.near).bind
    fun _ _ => tracks_skip.bind fun _ _ => ?_
  refine Tracks.narrow (N := m.Near) (.firstOf (.cons ?_ (.cons ?_ (.cons ?_ .nil)))) fun _ _ h =>
    h.near
  · exact tracks_quotedValue source source' (by decide) fun _ _ => alikeValue_quoted
  · exact tracks_bracedValue.map fun _ _ _ _ h => h.mono fun _ _ h => h.value
  · exact tracks_quotedValue source source' (by decide) fun l l' _ => alikeValue_single l l'

theorem shuns_attributeName {α : Type} {f : Lexeme → Matcher α} :
    (token .attributeName attributeName >>= f).Shuns :=
  ((shuns_scan attributeName_ignores rfl).named _).bind

theorem tracks_oneAttribute : Tracks 1 m.Near oneAttribute oneAttribute
    (m.Agrees (AlikeAttribute source source')) := by
  refine .named _ (tracks_of_settled ?_ ?_ ?_)
  · refine (Tracks.named _ (tracks_span isSpan_spaces1)).bind fun _ _ => ?_
    refine Tracks.bind (Q := fun l l' x y => l.chars = l'.chars ∧ m.Near x y) (.named _
      ((tracks_same attributeName_ignores fits_attributeName).narrow fun _ _ h => h.1.near)) fun name name' => ?_
    refine .given (fun _ _ h => h.1) fun hname => ?_
    have hvalue : Tracks 0 m.Near (named .attributeValue (orElse attributeToggle attributeAssign))
        (named .attributeValue (orElse attributeToggle attributeAssign))
        (m.Agrees (AlikeValue source source')) :=
      .named _ ((tracks_toggle source source').orElse (tracks_assign source source'))
    refine Tracks.map ((hvalue.optional fun _ _ h => h.nil_iff).narrow fun _ _ h => h.2) ?_
    rintro _ _ x y (⟨rfl, rfl, h⟩ | ⟨v, v', rfl, rfl, h⟩)
    · exact ⟨h, .inr (alike_attribute hname .none)⟩
    · exact h.mono fun _ _ h => alike_attribute hname (.some h)
  · exact Shuns.after (.of_stays fun _ => stays_space) fun _ => shuns_attributeName
  · exact Shuns.after (.of_stays fun _ => stays_space) fun _ => shuns_attributeName

theorem tracks_attributes : Tracks 0 m.Near (many oneAttribute) (many oneAttribute)
    (m.Agrees (List.Forall₂ (AlikeAttribute source source'))) :=
  (tracks_oneAttribute source source').many (fun _ _ h => h.nil_iff) (fun _ _ _ _ h => h.1)
    (fun _ _ h => ⟨h, .inr .nil⟩) fun h hrest hsuffix => ⟨hrest.1, by
      rcases h.2 with hidle | h
      · exact .inl (hidle.of_suffix hsuffix)
      · exact hrest.2.imp_right (.cons h)⟩

/-! ## Elements -/

theorem tracks_closingTag : Tracks 0 m.Near closingTag closingTag
    fun l l' x y => l.chars = l'.chars ∧ m.Near x y := by
  refine .named _ ((tracks_literal (by decide)).relax.bind fun _ _ => tracks_skip.bind fun _ _ => ?_)
  refine Tracks.bind (Q := fun l l' x y => l.chars = l'.chars ∧ m.Near x y) (.named _
    ((tracks_same tagName_ignores fits_tagName).narrow fun _ _ h => h.near)) fun name name' => ?_
  refine .given (fun _ _ h => h.1) fun hname => ?_
  refine (tracks_skip.narrow fun _ _ h => h.2).bind fun _ _ => ?_
  exact ((tracks_literal (by decide)).relax.narrow fun _ _ h => h.near).map
    fun _ _ _ _ h => ⟨hname, h⟩

theorem shuns_closingTag {α : Type} {f : Lexeme → Matcher α} : (closingTag >>= f).Shuns :=
  ((shuns_literal (by decide)).bind.named _).bind

/-- The children are alike, and so are the names in the closing tags, if there are any. -/
def AlikeTail (source source' : List Char) (r r' : List Surface × Option Lexeme) : Prop :=
  AlikeNodes source source' r.1 r'.1 ∧ Option.Rel (fun l l' => l.chars = l'.chars) r.2 r'.2

variable {source source'} (hnodes : Tracks 0 m.Near nodes nodes' (m.Agrees (AlikeNodes source source')))

include hnodes

theorem tracks_tagTail : Tracks 0 m.Near (tagTail nodes) (tagTail nodes')
    fun r r' x y => AlikeTail source source' r r' ∧ m.Near x y := by
  refine .named _ (.orElse ?_ (.named _ ((tracks_literal (by decide)).relax.bind fun _ _ => ?_)))
  · exact Tracks.map (.named _ (tracks_literal (by decide)).relax)
      fun _ _ _ _ h => ⟨⟨alikeNodes_nil, .none⟩, h⟩
  · refine tracks_agrees hnodes (fun children children' h => ?_) (fun _ => shuns_closingTag)
      fun _ => shuns_closingTag
    exact tracks_closingTag.map fun _ _ _ _ hclosing => ⟨⟨h, .some hclosing.1⟩, hclosing.2⟩

omit hnodes in
theorem shuns_tagTail {α : Type} {f : List Surface × Option Lexeme → Matcher α} :
    (skip >>= fun _ => tagTail nodes >>= f).Shuns := by
  refine Shuns.after (.of_stays fun _ => Rsx.stays_skip) fun _ => ?_
  exact (((shuns_literal (by decide)).named _).bind.orElse
    ((shuns_literal (by decide)).bind.named _)).named _ |>.bind

theorem tracks_element : Tracks 1 m.Near (element nodes) (element nodes')
    fun s s' x y => AlikeNode source source' s s' ∧ OneNode s ∧ m.Near x y := by
  refine .named _ (.after .offset fun offset offset' => ?_)
  refine (tracks_literal (by decide)).bind fun _ _ => ?_
  refine Tracks.bind (Q := fun l l' x y => l.chars = l'.chars ∧ m.Near x y)
    (.named _ (tracks_same tagName_ignores fits_tagName)) fun name name' => ?_
  refine .given (fun _ _ h => h.1) fun hname => ?_
  refine tracks_agrees ((tracks_attributes source source').narrow fun _ _ h => h.2)
    (fun attributes attributes' hattributes => ?_) (fun _ => shuns_tagTail) fun _ => shuns_tagTail
  refine tracks_skip.bind fun _ _ => ?_
  refine ((tracks_tagTail hnodes).narrow fun _ _ h => h.near).map ?_
  rintro r r' x y ⟨⟨hchildren, hclosing⟩, h⟩
  exact ⟨alike_element hname hattributes hchildren hclosing offset offset', oneNode_element _ _ _ _ _ _, h⟩

/-! ## Fragments and comments -/

theorem tracks_fragment : Tracks 1 m.Near (fragment nodes) (fragment nodes')
    fun s s' x y => AlikeNode source source' s s' ∧ m.Settled x y := by
  refine .named _ ((tracks_literal (by decide)).bind fun _ _ => ?_)
  have hshuns {α : Type} {f : Lexeme → Matcher α} :
      (token .fragmentClose (literal ['<', '/', '>']) >>= f).Shuns :=
    ((shuns_literal (by decide)).named _).bind
  refine tracks_agrees hnodes (fun children children' h => ?_) (fun _ => hshuns) fun _ => hshuns
  refine Tracks.map (.named _ (tracks_scan (literal_ignores (by decide)) (fits_literal _)
    fun _ => Nat.zero_le _)) ?_
  rintro l l' x y ⟨-, hread, -, hsettled⟩
  refine ⟨h.group, hsettled (.inr ?_)⟩
  have hl := literal_eq_some hread
  rw [List.take_left] at hl
  rw [hl]
  exact List.suffix_refl _

omit hnodes in
theorem tracks_comment : Tracks 1 m.Near (do let _ ← token .comment comment; return Surface.comment)
    (do let _ ← token .comment comment; return Surface.comment)
    fun s s' x y => AlikeNode source source' s s' ∧ m.Settled x y := by
  refine Tracks.map (.named _ (tracks_scan comment_ignores fits_comment fun h => ?_)) ?_
  · have hlength := (comment_ends h).length_le.trans (List.length_take_le _ _)
    exact Nat.le_of_lt (Nat.lt_of_lt_of_le (by decide) hlength)
  rintro l l' x y ⟨-, hread, -, hsettled⟩
  have hl := comment_ends hread
  rw [List.take_left] at hl
  exact ⟨alike_comment, hsettled (.inl hl)⟩

end Seam

end Stencil.Source
