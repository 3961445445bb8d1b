import Stencil.Proofs.Grammar.NameScanners
import Stencil.Proofs.Grammar.Yields
import Stencil.Source.Maud
import Stencil.Source.Rsx

/-!
# Names in surface trees

Whatever either grammar recognizes, the names of its elements and of their attributes can stand in
tags.
-/

namespace Stencil.Source

open Markup Matcher

/-- The attribute has a name that can stand in a tag. -/
def SurfaceAttribute.Named (a : SurfaceAttribute) : Prop :=
  IsName a.name.chars

/-- All elements in the node have names that can stand in tags, and so have their attributes. -/
inductive Surface.Named : Surface → Prop
  | comment : Named .comment
  | doctype (offset : Nat) : Named (.doctype offset)
  | group {nodes : List Surface} (h : ∀ n ∈ nodes, n.Named) : Named (.group nodes)
  | raw (offset : Nat) (body : Lexeme) : Named (.raw offset body)
  | choice (offset : Nat) {branches : List (Lexeme × List Surface)} {last : Option (List Surface)}
      (h : ∀ b ∈ branches, ∀ n ∈ b.2, n.Named) (hlast : ∀ body ∈ last, ∀ n ∈ body, n.Named) :
      Named (.choice offset branches last)
  | each (offset : Nat) (names source : Lexeme) {body : List Surface} (h : ∀ n ∈ body, n.Named) :
      Named (.each offset names source body)
  | cases (offset : Nat) (subject : Lexeme) {arms : List (Option Lexeme × List Surface)}
      (h : ∀ arm ∈ arms, ∀ n ∈ arm.2, n.Named) : Named (.cases offset subject arms)
  | element (offset : Nat) {name : Lexeme} (shorthands : List Shorthand)
      {attributes : List SurfaceAttribute} {children : List Surface} (closing : Option Lexeme)
      (hname : IsTagName name.chars) (hnames : ∀ a ∈ attributes, a.Named)
      (h : ∀ n ∈ children, n.Named) :
      Named (.element offset name shorthands attributes children closing)
  | splice (offset : Nat) (body : Lexeme) : Named (.splice offset body)
  | quoted (literal : Lexeme) : Named (.quoted literal)
  | plain (text : Lexeme) : Named (.plain text)
  | number (text : Lexeme) : Named (.number text)

/-- All nodes have names that can stand in tags. -/
def AreNamed (nodes : List Surface) : Prop :=
  ∀ n ∈ nodes, n.Named

/-! ## What both dialects have -/

theorem yields_attributeName :
    (token .attributeName attributeName).Yields fun name => IsName name.chars :=
  .token fun _ _ _ hn => isName_attributeName hn

theorem yields_tagName : (token .tagName tagName).Yields fun name => IsTagName name.chars :=
  .token fun _ _ _ hn => isTagName_tagName hn

theorem yields_blockName : (token .blockName blockName).Yields fun name => IsTagName name.chars :=
  .token fun _ _ _ hn => isTagName_blockName hn

namespace ControlStyle

variable {style : ControlStyle} (h : style.block.Yields AreNamed)

include h

theorem yields_elseIf : style.elseIf.Yields fun branch => AreNamed branch.2 :=
  .named _ (.after fun _ => .after fun _ => .after fun _ => .after fun _ => .after fun _ =>
    .after fun _ => h.bind fun _ hbody => .pure hbody)

theorem yields_elseBlock : style.elseBlock.Yields AreNamed :=
  .named _ (.after fun _ => .after fun _ => .after fun _ => h)

theorem yields_ifBlock : style.ifBlock.Yields Surface.Named :=
  .named _ (.after fun offset => .after fun _ => .after fun _ => .after fun _ =>
    h.bind fun _ hbody => (yields_elseIf h).many.bind fun _ hothers =>
      (yields_elseBlock h).optional.bind fun _ hlast =>
        .pure (.choice offset (List.forall_mem_cons.mpr ⟨hbody, hothers⟩) hlast))

theorem yields_forBlock : style.forBlock.Yields Surface.Named :=
  .named _ (.after fun offset => .after fun _ => .after fun _ => .after fun header =>
    .after fun _ => h.bind fun _ hbody => .pure (.each offset header.1 header.2 hbody))

theorem yields_matchArm : style.matchArm.Yields fun arm => AreNamed arm.2 :=
  .named _ (.after fun _ => .after fun _ => .after fun _ => .after fun _ => h.bind fun _ hbody =>
    .after fun _ => .after fun _ => .after fun _ => .pure hbody)

theorem yields_matchBlock : style.matchBlock.Yields Surface.Named :=
  .named _ (.after fun offset => .after fun _ => .after fun _ => .after fun subject =>
    .after fun _ => .after fun _ => (yields_matchArm h).many.bind fun _ harms =>
      .after fun _ => .pure (.cases offset subject harms))

theorem yields_control : style.control.Yields Surface.Named :=
  .named _ (.firstOf (by simp [yields_ifBlock h, yields_forBlock h, yields_matchBlock h]))

omit h in
theorem yields_rawOutput : style.rawOutput.Yields Surface.Named :=
  .named _ (.after fun offset => .after fun _ => .after fun _ => .after fun _ =>
    .after fun body => .after fun _ => .pure (.raw offset body))

end ControlStyle

theorem yields_quoted : quoted.Yields Surface.Named :=
  .after fun literal => .pure (.quoted literal)

/-! ## The dialect of tags -/

namespace Rsx

theorem yields_oneAttribute : oneAttribute.Yields SurfaceAttribute.Named :=
  .named _ (.after fun _ => yields_attributeName.bind fun _ hname => .after fun _ => .pure hname)

variable {nodes : Matcher (List Surface)} (h : nodes.Yields AreNamed)

include h

theorem yields_tagTail : (tagTail nodes).Yields fun tail => AreNamed tail.1 :=
  .named _ (.orElse (.after fun _ => .pure (List.forall_mem_nil _))
    (.named _ (.after fun _ => h.bind fun _ hchildren => .after fun _ => .pure hchildren)))

theorem yields_element : (element nodes).Yields Surface.Named :=
  .named _ (.after fun offset => .after fun _ => yields_tagName.bind fun _ hname =>
    yields_oneAttribute.many.bind fun _ hnames => .after fun _ =>
      (yields_tagTail h).bind fun tail hchildren =>
        .pure (.element offset [] tail.2 hname hnames hchildren))

theorem yields_fragment : (fragment nodes).Yields Surface.Named :=
  .named _ (.after fun _ => h.bind fun _ hnodes => .after fun _ => .pure (.group hnodes))

theorem yields_block : (block nodes).Yields AreNamed :=
  .named _ (.after fun _ => h.bind fun _ hbody => .after fun _ => .pure hbody)

theorem yields_node : (node nodes).Yields Surface.Named := by
  refine .named _ (.firstOf ?_)
  simp only [List.forall_mem_cons, List.not_mem_nil, IsEmpty.forall_iff, implies_true, and_true]
  refine ⟨?_, ?_, yields_fragment h, ControlStyle.yields_rawOutput,
    ControlStyle.yields_control (yields_block h), yields_element h, ?_, yields_quoted, ?_⟩
  · exact .after fun _ => .pure .comment
  · exact .after fun _ => .pure (.doctype _)
  · exact .named _ (.after fun offset => .after fun body => .pure (.splice offset body))
  · exact .after fun text => .pure (.plain text)

omit h in
theorem yields_nodesWithin (n : Nat) : Yields (nodesWithin n) AreNamed := by
  induction n with
  | zero => exact Yields.fail
  | succ n ih => exact (yields_node ih).many

omit h in
theorem yields_document (depth : Nat) : (document depth).Yields AreNamed :=
  .named _ ((yields_nodesWithin depth).bind fun _ hnodes => .after fun _ => .pure hnodes)

end Rsx

/-! ## The dialect of blocks -/

namespace Maud

theorem yields_oneAttribute : oneAttribute.Yields SurfaceAttribute.Named :=
  .named _ (yields_attributeName.bind fun _ hname => .after fun _ => .pure hname)

theorem yields_attributes : attributes.Yields fun l => ∀ a ∈ l, a.Named := by
  refine .orElse (.named _ ?_) (Yields.many (.after fun _ => yields_oneAttribute))
  refine .after fun _ => .after fun _ => .after fun _ => ?_
  refine Yields.bind (Yields.many ?_) fun _ hnames => .after fun _ => .pure hnames
  exact yields_oneAttribute.bind fun _ hname => .after fun _ => .after fun _ => .after fun _ =>
    .pure hname

variable {nodes : Matcher (List Surface)} (h : nodes.Yields AreNamed)

include h

theorem yields_block : (block nodes).Yields AreNamed :=
  .named _ (.after fun _ => .after fun _ => h.bind fun _ hbody => .after fun _ => .pure hbody)

theorem yields_element : (element nodes).Yields Surface.Named := by
  refine .named _ (.after fun offset => ?_)
  refine yields_blockName.bind fun _ hname => .after fun shorthands =>
    yields_attributes.bind fun _ hnames => .after fun _ => ?_
  refine Yields.bind (.named _ (.orElse ?_ (yields_block h))) fun _ hchildren =>
    .pure (.element offset shorthands none hname hnames hchildren)
  exact .after fun _ => .pure (List.forall_mem_nil _)

theorem yields_node : (node nodes).Yields Surface.Named := by
  refine .named _ (.firstOf ?_)
  simp only [List.forall_mem_cons, List.not_mem_nil, IsEmpty.forall_iff, implies_true, and_true]
  refine ⟨?_, ControlStyle.yields_rawOutput, ControlStyle.yields_control (yields_block h), ?_,
    yields_quoted, ?_, ?_, yields_element h⟩
  · exact .after fun _ => .pure (.doctype _)
  · exact .named _ (.after fun offset => .after fun body => .pure (.splice offset body))
  · exact .after fun text => .pure (.number text)
  · exact (yields_block h).bind fun _ hnodes => .pure (.group hnodes)

omit h in
theorem yields_nodesWithin (n : Nat) : Yields (nodesWithin n) AreNamed := by
  induction n with
  | zero => exact Yields.fail
  | succ n ih => exact Yields.many ((yields_node ih).bind fun _ hnode => .after fun _ => .pure hnode)

omit h in
theorem yields_document (depth : Nat) : (document depth).Yields AreNamed :=
  .named _ (.after fun _ => (yields_nodesWithin depth).bind fun _ hnodes =>
    .after fun _ => .pure hnodes)

end Maud

end Stencil.Source
