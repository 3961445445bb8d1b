import Stencil.Proofs.Places.Lengths
import Stencil.Source.Maud
import Stencil.Source.Rsx

/-!
# Surface trees are made of the source

Whatever either grammar recognizes is made of pieces of the source at their offsets. An `if` has at
least one condition, and output that is not escaped is there only where the source says `@raw`.
-/

namespace Stencil.Source

open Matcher

/-- The word that begins output that is not escaped. -/
def rawWord : List Char := ['@', 'r', 'a', 'w']

variable (source : List Char)

/-- The lexeme in a value of an attribute is a piece of the source. -/
def SurfaceValue.Sits : SurfaceValue → Prop
  | .quoted literal => literal.Sits source
  | .single literal => literal.Sits source
  | .expr body => body.Sits source
  | .toggle body => body.Sits source

/-- An attribute that is made of pieces of the source. -/
structure SurfaceAttribute.Sits (a : SurfaceAttribute) : Prop where
  name : a.name.Sits source
  value : ∀ v ∈ a.value, v.Sits source

/-- The lexeme in a value of a class or id mark is a piece of the source. -/
def ShortValue.Sits : ShortValue → Prop
  | .name text => text.Sits source
  | .quoted literal => literal.Sits source
  | .expr body => body.Sits source

/-- A class or id mark that is made of pieces of the source. -/
structure Shorthand.Sits (s : Shorthand) : Prop where
  offset_le : s.offset ≤ source.length
  value : s.value.Sits source

/-- A surface node that is made of pieces of the source. -/
inductive Surface.Sits : Surface → Prop
  | comment : Sits .comment
  | doctype {offset : Nat} (h : offset ≤ source.length) : Sits (.doctype offset)
  | group {nodes : List Surface} (h : ∀ n ∈ nodes, n.Sits) : Sits (.group nodes)
  | raw {offset : Nat} {body : Lexeme} (h : offset ≤ source.length) (hbody : body.Sits source)
      (hword : rawWord <:+: source) : Sits (.raw offset body)
  | choice {offset : Nat} {branches : List (Lexeme × List Surface)} {last : Option (List Surface)}
      (h : offset ≤ source.length) (hne : branches ≠ []) (htests : ∀ b ∈ branches, b.1.Sits source)
      (hbodies : ∀ b ∈ branches, ∀ n ∈ b.2, n.Sits) (hlast : ∀ body ∈ last, ∀ n ∈ body, n.Sits) :
      Sits (.choice offset branches last)
  | each {offset : Nat} {names items : Lexeme} {body : List Surface} (h : offset ≤ source.length)
      (hitems : items.Sits source) (hbody : ∀ n ∈ body, n.Sits) :
      Sits (.each offset names items body)
  | cases {offset : Nat} {subject : Lexeme} {arms : List (Option Lexeme × List Surface)}
      (h : offset ≤ source.length) (hsubject : subject.Sits source)
      (hpatterns : ∀ arm ∈ arms, ∀ pattern ∈ arm.1, pattern.Sits source)
      (hbodies : ∀ arm ∈ arms, ∀ n ∈ arm.2, n.Sits) : Sits (.cases offset subject arms)
  | element {offset : Nat} {name : Lexeme} {shorthands : List Shorthand}
      {attributes : List SurfaceAttribute} {children : List Surface} {closing : Option Lexeme}
      (h : offset ≤ source.length) (hname : name.Sits source)
      (hshort : ∀ s ∈ shorthands, s.Sits source) (hattributes : ∀ a ∈ attributes, a.Sits source)
      (hchildren : ∀ n ∈ children, n.Sits) (hclosing : ∀ name ∈ closing, name.Sits source) :
      Sits (.element offset name shorthands attributes children closing)
  | splice {offset : Nat} {body : Lexeme} (h : offset ≤ source.length) (hbody : body.Sits source) :
      Sits (.splice offset body)
  | quoted {literal : Lexeme} (h : literal.Sits source) : Sits (.quoted literal)
  | plain {text : Lexeme} (h : text.Sits source) : Sits (.plain text)
  | number {text : Lexeme} (h : text.Sits source) : Sits (.number text)

/-- All nodes are made of pieces of the source. -/
def SurfaceSits (nodes : List Surface) : Prop :=
  ∀ n ∈ nodes, n.Sits source

/-- A matcher that stays in the source, whatever it yields. -/
abbrev Matcher.StaysIn {α : Type} (p : Matcher α) : Prop :=
  p.Stays source fun _ => True

variable {source}

theorem Matcher.Stays.staysIn {α : Type} {p : Matcher α} {P : α → Prop} (h : p.Stays source P) :
    p.StaysIn source :=
  h.mono fun _ _ => trivial

/-! ## Expressions -/

theorem stays_stringPiece : stringPiece.StaysIn source :=
  (Stays.token _ fits_exprString).after fun _ => .pure trivial

theorem stays_bracketed (rule : Rule) (opening closing : Char) {body : Matcher Unit}
    (h : body.StaysIn source) : (bracketed rule opening closing body).StaysIn source := by
  refine .named rule ((Stays.piece (fits_literal _)).after fun _ => h.after fun _ => ?_)
  exact (Stays.piece (fits_literal _)).after fun _ => .pure trivial

theorem stays_code (rule : Rule) {scanner : Scanner} (h : Fits scanner) :
    Matcher.StaysIn source (do let _ ← token rule scanner) :=
  (Stays.token rule h).after fun _ => .pure trivial

theorem stays_piece {inner : Matcher Unit} (h : inner.StaysIn source) :
    (balanced.piece inner).StaysIn source := by
  refine .firstOf ?_
  simp only [List.forall_mem_cons, List.not_mem_nil, IsEmpty.forall_iff, implies_true, and_true]
  exact ⟨stays_stringPiece, stays_bracketed _ _ _ h, stays_bracketed _ _ _ h,
    stays_bracketed _ _ _ h, stays_code _ (fits_run1 _)⟩

theorem stays_balanced (n : Nat) : Matcher.StaysIn source (balanced n) := by
  induction n with
  | zero => exact .pure trivial
  | succ n ih => exact (stays_piece ih).many.after fun _ => .pure trivial

theorem stays_exprBody : exprBody.StaysIn source :=
  fun c hc => stays_balanced c.rest.length hc

/-- Closed pieces with code of some kind between them. -/
theorem stays_pieces (rule outer : Rule) {scanner : Scanner} (h : Fits scanner) :
    (named outer (lexeme (some1 (firstOf (closedPieces ++ [do let _ ← token rule scanner]))))).Stays
      source (Lexeme.Sits source) := by
  refine .named outer (Stays.some1 (P := fun _ => True) (.firstOf ?_)).lexeme
  simp only [closedPieces, List.cons_append, List.nil_append, List.forall_mem_cons,
    List.not_mem_nil, IsEmpty.forall_iff, implies_true, and_true]
  exact ⟨stays_stringPiece, stays_bracketed _ _ _ stays_exprBody,
    stays_bracketed _ _ _ stays_exprBody, stays_code _ h⟩

theorem stays_condition : condition.Stays source (Lexeme.Sits source) :=
  stays_pieces _ _ (fits_run1 _)

theorem stays_patternExpr : patternExpr.Stays source (Lexeme.Sits source) :=
  stays_pieces _ _ fits_patternCode

/-! ## Control blocks -/

theorem stays_word (rule : Rule) (word : List Char) :
    (token rule (keyword word)).StaysIn source :=
  (Stays.token rule (fits_keyword word)).staysIn

theorem stays_mark (rule : Rule) (word : List Char) :
    (token rule (literal word)).StaysIn source :=
  (Stays.token rule (fits_literal word)).staysIn

theorem stays_space : space.StaysIn source :=
  (Stays.token _ (fits_run1 _)).staysIn

theorem stays_literal (word : List Char) : (scan (literal word)).StaysIn source :=
  (Stays.piece (fits_literal word)).staysIn

/-- The word for raw output is found in the source only. -/
theorem stays_wordRaw :
    (token .wordRaw (keyword rawWord)).Stays source fun _ => rawWord <:+: source := by
  refine .named _ ((Stays.scan (fits_keyword _)).mono ?_)
  rintro l ⟨hl, text, n, hn, hchars⟩
  rw [take_keyword hn] at hchars
  exact hchars ▸ hl.isInfix

namespace ControlStyle

/-- What a dialect supplies stays in the source. -/
structure Sits (source : List Char) (style : ControlStyle) : Prop where
  skip : style.skip.StaysIn source
  block : style.block.Stays source (SurfaceSits source)

variable {style : ControlStyle} (h : style.Sits source)

include h

theorem stays_elseIf : style.elseIf.Stays source fun branch =>
    branch.1.Sits source ∧ SurfaceSits source branch.2 := by
  refine .named _ (h.skip.after fun _ => (stays_word _ _).after fun _ => h.skip.after fun _ => ?_)
  refine (stays_word _ _).after fun _ => h.skip.after fun _ => ?_
  exact stays_condition.bind fun test htest => h.block.bind fun body hbody => .pure ⟨htest, hbody⟩

theorem stays_elseBlock : style.elseBlock.Stays source (SurfaceSits source) :=
  .named _ (h.skip.after fun _ => (stays_word _ _).after fun _ => h.skip.after fun _ => h.block)

theorem stays_ifBlock : style.ifBlock.Stays source (Surface.Sits source) := by
  refine .named _ (Stays.offset.bind fun offset hoffset => (stays_word _ _).after fun _ => ?_)
  refine h.skip.after fun _ => stays_condition.bind fun test htest => ?_
  refine h.block.bind fun body hbody => (stays_elseIf h).many.bind fun others hothers => ?_
  refine (stays_elseBlock h).optional.bind fun last hlast => ?_
  exact .pure (.choice hoffset (List.cons_ne_nil _ _)
    (List.forall_mem_cons.mpr ⟨htest, fun b hb => (hothers b hb).1⟩)
    (List.forall_mem_cons.mpr ⟨hbody, fun b hb => (hothers b hb).2⟩) hlast)

theorem stays_forTarget : style.forTarget.Stays source (Lexeme.Sits source) := by
  have hnames : (token .nameList nameList).StaysIn source := (Stays.token _ fits_nameList).staysIn
  refine .named _ (Stays.lexeme (P := fun _ => True) (.orElse ?_ ?_))
  · refine (stays_literal _).after fun _ => h.skip.after fun _ => hnames.after fun _ => ?_
    exact h.skip.after fun _ => (stays_literal _).after fun _ => .pure trivial
  · exact hnames.after fun _ => .pure trivial

theorem stays_forPlain : style.forPlain.Stays source fun header => header.2.Sits source := by
  refine .named _ ((stays_forTarget h).after fun _ => stays_space.after fun _ => ?_)
  refine (stays_word _ _).after fun _ => stays_space.after fun _ => ?_
  exact stays_condition.bind fun items hitems => .pure hitems

theorem stays_forParen : style.forParen.Stays source fun header => header.2.Sits source := by
  refine .named _ ((stays_literal _).after fun _ => h.skip.after fun _ => ?_)
  refine (stays_forTarget h).after fun _ => stays_space.after fun _ => ?_
  refine (stays_word _ _).after fun _ => stays_space.after fun _ => ?_
  exact stays_condition.bind fun items hitems => (stays_mark _ _).after fun _ => .pure hitems

theorem stays_forBlock : style.forBlock.Stays source (Surface.Sits source) := by
  refine .named _ (Stays.offset.bind fun offset hoffset => (stays_word _ _).after fun _ => ?_)
  refine h.skip.after fun _ => ?_
  refine (Stays.named _ ((stays_forParen h).orElse (stays_forPlain h))).bind fun header hitems => ?_
  exact h.skip.after fun _ => h.block.bind fun body hbody => .pure (.each hoffset hitems hbody)

theorem stays_matchArm : style.matchArm.Stays source fun arm =>
    (∀ pattern ∈ arm.1, pattern.Sits source) ∧ SurfaceSits source arm.2 := by
  have hpattern : (named .pattern (orElse
      (do let _ ← token .wildcard wildcard; return none)
      (do return some (← patternExpr)))).Stays source fun (o : Option Lexeme) =>
        ∀ pattern ∈ o, pattern.Sits source := by
    refine .named _ (.orElse ?_ ?_)
    · exact (Stays.token _ fits_wildcard).after fun _ => .pure nofun
    · refine stays_patternExpr.bind fun pattern hp => .pure ?_
      intro found hfound
      cases hfound
      exact hp
  refine .named _ (hpattern.bind fun pattern hp => h.skip.after fun _ => ?_)
  refine (stays_mark _ _).after fun _ => h.skip.after fun _ => h.block.bind fun body hbody => ?_
  refine h.skip.after fun _ => (stays_literal _).optional.after fun _ => h.skip.after fun _ => ?_
  exact .pure ⟨hp, hbody⟩

theorem stays_matchBlock : style.matchBlock.Stays source (Surface.Sits source) := by
  refine .named _ (Stays.offset.bind fun offset hoffset => (stays_word _ _).after fun _ => ?_)
  refine h.skip.after fun _ => stays_condition.bind fun subject hsubject => ?_
  refine (stays_literal _).after fun _ => h.skip.after fun _ => ?_
  refine (stays_matchArm h).many.bind fun arms harms => (stays_mark _ _).after fun _ => ?_
  exact .pure (.cases hoffset hsubject (fun arm hmem => (harms arm hmem).1)
    fun arm hmem => (harms arm hmem).2)

theorem stays_control : style.control.Stays source (Surface.Sits source) :=
  .named _ (.firstOf (by simp [stays_ifBlock h, stays_forBlock h, stays_matchBlock h]))

theorem stays_rawOutput : style.rawOutput.Stays source (Surface.Sits source) := by
  refine .named _ (Stays.offset.bind fun offset hoffset => stays_wordRaw.bind fun _ hword => ?_)
  refine h.skip.after fun _ => (stays_literal _).after fun _ => ?_
  refine stays_exprBody.lexeme.bind fun body hbody => (stays_mark _ _).after fun _ => ?_
  exact .pure (.raw hoffset hbody hword)

end ControlStyle

theorem stays_quoted : quoted.Stays source (Surface.Sits source) :=
  (Stays.token _ fits_quotedText).bind fun _ hl => .pure (.quoted hl)

/-- An expression between two marks. -/
theorem stays_enclosed (rule closing : Rule) (opening mark : List Char) :
    (named rule do
      let _ ← scan (literal opening)
      let body ← lexeme exprBody
      let _ ← token closing (literal mark)
      return body).Stays source (Lexeme.Sits source) := by
  refine .named rule ((stays_literal _).after fun _ => ?_)
  refine stays_exprBody.lexeme.bind fun body hbody => ?_
  exact (stays_mark _ _).after fun _ => .pure hbody

theorem stays_assigned {expr : Matcher Lexeme} (h : expr.Stays source (Lexeme.Sits source)) :
    (assigned expr).Stays source (SurfaceValue.Sits source) := by
  refine .firstOf ?_
  simp only [List.forall_mem_cons, List.not_mem_nil, IsEmpty.forall_iff, implies_true, and_true]
  refine ⟨?_, ?_, ?_⟩
  · exact (Stays.token _ (fits_between _)).bind fun _ hl => .pure hl
  · exact h.bind fun _ hl => .pure hl
  · exact (Stays.token _ (fits_between _)).bind fun _ hl => .pure hl

/-- A name, and maybe a value after it. -/
theorem stays_attribute {rule : Rule} {toggle assign : Matcher SurfaceValue}
    (htoggle : toggle.Stays source (SurfaceValue.Sits source))
    (hassign : assign.Stays source (SurfaceValue.Sits source)) :
    Matcher.Stays source (do
      let name ← token .attributeName attributeName
      let value ← optional (named rule (orElse toggle assign))
      return ⟨name, value⟩ : Matcher SurfaceAttribute) (SurfaceAttribute.Sits source) := by
  refine (Stays.token _ fits_attributeName).bind fun name hname => ?_
  exact (Stays.named rule (htoggle.orElse hassign)).optional.bind fun value hvalue =>
    .pure ⟨hname, hvalue⟩

/-! ## The dialect of tags -/

namespace Rsx

theorem stays_skip : skip.StaysIn source :=
  (Stays.piece (fits_of_some spaces_le)).after fun _ => .pure trivial

theorem stays_braced : braced.Stays source (Lexeme.Sits source) :=
  stays_enclosed _ _ _ _

theorem stays_oneAttribute : oneAttribute.Stays source (SurfaceAttribute.Sits source) := by
  refine .named _ (stays_space.after fun _ => stays_attribute ?_ ?_)
  · refine .named _ (stays_skip.after fun _ => (stays_literal _).after fun _ => ?_)
    exact stays_skip.after fun _ => stays_braced.bind fun body hbody => .pure hbody
  · refine .named _ (stays_skip.after fun _ => (stays_literal _).after fun _ => ?_)
    exact stays_skip.after fun _ => stays_assigned stays_braced

theorem stays_closingTag : closingTag.Stays source (Lexeme.Sits source) := by
  refine .named _ ((stays_literal _).after fun _ => stays_skip.after fun _ => ?_)
  refine (Stays.token _ fits_tagName).bind fun name hname => stays_skip.after fun _ => ?_
  exact (stays_literal _).after fun _ => .pure hname

variable {nodes : Matcher (List Surface)} (h : nodes.Stays source (SurfaceSits source))

include h

theorem stays_tagTail : (tagTail nodes).Stays source fun tail =>
    SurfaceSits source tail.1 ∧ ∀ name ∈ tail.2, name.Sits source := by
  refine .named _ (.orElse ?_ (.named _ ?_))
  · exact (stays_mark _ _).after fun _ => .pure ⟨List.forall_mem_nil _, nofun⟩
  · refine (stays_literal _).after fun _ => h.bind fun children hchildren => ?_
    refine stays_closingTag.bind fun name hname => .pure ⟨hchildren, ?_⟩
    intro found hfound
    cases hfound
    exact hname

theorem stays_element : (element nodes).Stays source (Surface.Sits source) := by
  refine .named _ (Stays.offset.bind fun offset hoffset => (stays_literal _).after fun _ => ?_)
  refine (Stays.token _ fits_tagName).bind fun name hname => ?_
  refine stays_oneAttribute.many.bind fun attributes hattributes => stays_skip.after fun _ => ?_
  exact (stays_tagTail h).bind fun tail htail => .pure (.element hoffset hname
    (List.forall_mem_nil _) hattributes htail.1 htail.2)

theorem stays_fragment : (fragment nodes).Stays source (Surface.Sits source) := by
  refine .named _ ((stays_literal _).after fun _ => h.bind fun children hchildren => ?_)
  exact (stays_mark _ _).after fun _ => .pure (.group hchildren)

theorem stays_block : (block nodes).Stays source (SurfaceSits source) := by
  refine .named _ ((stays_literal _).after fun _ => h.bind fun body hbody => ?_)
  exact (stays_mark _ _).after fun _ => .pure hbody

theorem sits_style : (style nodes).Sits source :=
  ⟨stays_skip, stays_block h⟩

theorem stays_node : (node nodes).Stays source (Surface.Sits source) := by
  refine .named _ (.firstOf ?_)
  simp only [List.forall_mem_cons, List.not_mem_nil, IsEmpty.forall_iff, implies_true, and_true]
  refine ⟨?_, ?_, stays_fragment h, ControlStyle.stays_rawOutput (sits_style h),
    ControlStyle.stays_control (sits_style h), stays_element h, ?_, stays_quoted, ?_⟩
  · exact (Stays.token _ fits_comment).after fun _ => .pure .comment
  · exact (Stays.token _ fits_doctype).bind fun _ hl => .pure (.doctype hl.offset_le)
  · refine .named _ (Stays.offset.bind fun offset hoffset => ?_)
    exact stays_braced.bind fun body hbody => .pure (.splice hoffset hbody)
  · exact (Stays.token _ fits_plainText).bind fun _ hl => .pure (.plain hl)

omit h in
theorem stays_nodesWithin (n : Nat) : Stays source (nodesWithin n) (SurfaceSits source) := by
  induction n with
  | zero => exact Stays.fail
  | succ n ih => exact (stays_node ih).many

omit h in
theorem stays_document (depth : Nat) : (document depth).Stays source (SurfaceSits source) :=
  .named _ ((stays_nodesWithin depth).bind fun _ hnodes =>
    (Stays.token _ fits_end).after fun _ => .pure hnodes)

end Rsx

/-! ## The dialect of blocks -/

namespace Maud

theorem stays_skip : skip.StaysIn source :=
  (Stays.piece (fits_of_some (spacesAndComments_le false))).after fun _ => .pure trivial

theorem stays_splice : splice.Stays source (Lexeme.Sits source) :=
  stays_enclosed _ _ _ _

theorem stays_oneAttribute : oneAttribute.Stays source (SurfaceAttribute.Sits source) := by
  refine .named _ (stays_attribute (.named _ ?_) (.named _ ?_))
  · refine (stays_literal _).after fun _ => stays_exprBody.lexeme.bind fun body hbody => ?_
    exact (stays_mark _ _).after fun _ => .pure hbody
  · refine stays_skip.after fun _ => (stays_literal _).after fun _ => ?_
    exact stays_skip.after fun _ => stays_assigned stays_splice

theorem stays_attributes : attributes.Stays source fun l => ∀ a ∈ l, a.Sits source := by
  refine .orElse (.named _ ?_) (Stays.many (stays_space.after fun _ => stays_oneAttribute))
  refine stays_skip.after fun _ => (stays_literal _).after fun _ => stays_skip.after fun _ => ?_
  refine Stays.bind (Stays.many (P := SurfaceAttribute.Sits source) ?_) fun l hl =>
    (stays_mark _ _).after fun _ => .pure hl
  refine stays_oneAttribute.bind fun a ha => stays_skip.after fun _ => ?_
  exact (stays_literal _).optional.after fun _ => stays_skip.after fun _ => .pure ha

theorem stays_shorthand : shorthand.Stays source (Shorthand.Sits source) := by
  refine .named _ ((Stays.piece fits_shorthandMark).bind fun mark hmark => ?_)
  refine Stays.bind (.named _ (.firstOf ?_) : Matcher.Stays source _ (ShortValue.Sits source))
    fun value hvalue => .pure ⟨hmark.offset_le, hvalue⟩
  simp only [List.forall_mem_cons, List.not_mem_nil, IsEmpty.forall_iff, implies_true, and_true]
  refine ⟨?_, ?_, ?_⟩
  · exact (Stays.token _ (fits_run1 _)).bind fun _ hl => .pure hl
  · exact (Stays.token _ fits_quotedText).bind fun _ hl => .pure hl
  · exact stays_splice.bind fun _ hl => .pure hl

variable {nodes : Matcher (List Surface)} (h : nodes.Stays source (SurfaceSits source))

include h

theorem stays_block : (block nodes).Stays source (SurfaceSits source) := by
  refine .named _ ((stays_literal _).after fun _ => stays_skip.after fun _ => ?_)
  exact h.bind fun body hbody => (stays_mark _ _).after fun _ => .pure hbody

theorem sits_style : (style nodes).Sits source :=
  ⟨stays_skip, stays_block h⟩

theorem stays_element : (element nodes).Stays source (Surface.Sits source) := by
  refine .named _ (Stays.offset.bind fun offset hoffset => ?_)
  refine (Stays.token _ fits_blockName).bind fun name hname => ?_
  refine stays_shorthand.many.bind fun shorthands hshort => ?_
  refine stays_attributes.bind fun attributes hattributes => stays_skip.after fun _ => ?_
  refine Stays.bind (.named _ (.orElse ?_ (stays_block h))) fun children hchildren =>
    .pure (.element hoffset hname hshort hattributes hchildren nofun)
  exact (stays_mark _ _).after fun _ => .pure (List.forall_mem_nil _)

theorem stays_node : (node nodes).Stays source (Surface.Sits source) := by
  refine .named _ (.firstOf ?_)
  simp only [List.forall_mem_cons, List.not_mem_nil, IsEmpty.forall_iff, implies_true, and_true]
  refine ⟨?_, ControlStyle.stays_rawOutput (sits_style h),
    ControlStyle.stays_control (sits_style h), ?_, stays_quoted, ?_, ?_, stays_element h⟩
  · exact (Stays.token _ (fits_literal _)).bind fun _ hl => .pure (.doctype hl.offset_le)
  · refine .named _ (Stays.offset.bind fun offset hoffset => ?_)
    exact stays_splice.bind fun body hbody => .pure (.splice hoffset hbody)
  · exact (Stays.token _ fits_number).bind fun _ hl => .pure (.number hl)
  · exact (stays_block h).bind fun body hbody => .pure (.group hbody)

omit h in
theorem stays_nodesWithin (n : Nat) : Stays source (nodesWithin n) (SurfaceSits source) := by
  induction n with
  | zero => exact Stays.fail
  | succ n ih =>
    exact Stays.many ((stays_node ih).bind fun _ hnode => stays_skip.after fun _ => .pure hnode)

omit h in
theorem stays_document (depth : Nat) : (document depth).Stays source (SurfaceSits source) :=
  .named _ (stays_skip.after fun _ => (stays_nodesWithin depth).bind fun _ hnodes =>
    (Stays.token _ fits_end).after fun _ => .pure hnodes)

end Maud

end Stencil.Source
