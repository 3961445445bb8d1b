import Stencil.Proofs.Grammar.LoopHeads
import Stencil.Proofs.Places.Made

/-!
# Loops in trees

Whatever source is read, in either dialect, every loop of its tree stands at an offset of the
source, and its names are found in the text of the target that stands there.

**Theorem (`loop_of_read`).** So a loop binds exactly the names that the grammar has matched, in their
order, if nothing but white space stands between them and parentheses around them. A comment that
stands there, which only the dialect of blocks has, ends up in a name.
-/

namespace Stencil.Source

open Text Matcher

/-! ## Surface trees -/

variable {P : Nat → Lexeme → Prop} {d : Dialect} {source : List Char}

/-- All loops of a surface node, at any depth, are as said. -/
inductive Surface.Loops (P : Nat → Lexeme → Prop) : Surface → Prop
  | comment : Loops P .comment
  | doctype (offset : Nat) : Loops P (.doctype offset)
  | group {nodes : List Surface} (h : ∀ n ∈ nodes, n.Loops P) : Loops P (.group nodes)
  | raw (offset : Nat) (body : Lexeme) : Loops P (.raw offset body)
  | choice (offset : Nat) {branches : List (Lexeme × List Surface)} {last : Option (List Surface)}
      (h : ∀ b ∈ branches, ∀ n ∈ b.2, n.Loops P) (hlast : ∀ body ∈ last, ∀ n ∈ body, n.Loops P) :
      Loops P (.choice offset branches last)
  | each {offset : Nat} {names : Lexeme} (items : Lexeme) {body : List Surface}
      (hloop : P offset names) (h : ∀ n ∈ body, n.Loops P) :
      Loops P (.each offset names items body)
  | cases (offset : Nat) (subject : Lexeme) {arms : List (Option Lexeme × List Surface)}
      (h : ∀ arm ∈ arms, ∀ n ∈ arm.2, n.Loops P) : Loops P (.cases offset subject arms)
  | element (offset : Nat) (name : Lexeme) (shorthands : List Shorthand)
      (attributes : List SurfaceAttribute) {children : List Surface} (closing : Option Lexeme)
      (h : ∀ n ∈ children, n.Loops P) :
      Loops P (.element offset name shorthands attributes children closing)
  | splice (offset : Nat) (body : Lexeme) : Loops P (.splice offset body)
  | quoted (literal : Lexeme) : Loops P (.quoted literal)
  | plain (text : Lexeme) : Loops P (.plain text)
  | number (text : Lexeme) : Loops P (.number text)

/-- All loops of the nodes are as said. -/
def AreLoops (P : Nat → Lexeme → Prop) (nodes : List Surface) : Prop :=
  ∀ n ∈ nodes, n.Loops P

/-- The loop at an offset is in the source. -/
abbrev LoopIn (d : Dialect) (source : List Char) (offset : Nat) (names : Lexeme) : Prop :=
  ∃ ids margins, IsLoop d source offset ids margins names.chars

namespace Matcher

/-- What is known of a matcher's value besides. -/
theorem Stays.also {α : Type} {p : Matcher α} {Q R : α → Prop} (h : p.Stays source Q)
    (hR : ∀ {c a c'}, c.Sits source → (p c).result = some (a, c') → Q a → R a) :
    p.Stays source R := by
  intro c hc
  obtain ⟨hresult, hfurthest⟩ := h hc
  refine ⟨fun r hr => ⟨hR hc hr (hresult r hr).1, (hresult r hr).2⟩, hfurthest⟩

end Matcher

namespace ControlStyle

variable {style : ControlStyle} (hs : ∀ source, style.Sits source)
  (h : style.block.Stays source (AreLoops P))

include hs h

theorem loops_elseIf : style.elseIf.Stays source fun branch => AreLoops P branch.2 := by
  have hskip := (hs source).skip
  refine .named _ (hskip.after fun _ => (stays_word _ _).after fun _ => hskip.after fun _ => ?_)
  refine (stays_word _ _).after fun _ => hskip.after fun _ => stays_condition.after fun _ => ?_
  exact h.bind fun _ hbody => .pure hbody

theorem loops_elseBlock : style.elseBlock.Stays source (AreLoops P) :=
  have hskip := (hs source).skip
  .named _ (hskip.after fun _ => (stays_word _ _).after fun _ => hskip.after fun _ => h)

theorem loops_ifBlock : style.ifBlock.Stays source (Surface.Loops P) := by
  refine .named _ (Stays.offset.after fun offset => (stays_word _ _).after fun _ => ?_)
  refine (hs source).skip.after fun _ => stays_condition.after fun _ => h.bind fun _ hbody => ?_
  refine (loops_elseIf hs h).many.bind fun _ hothers => ?_
  refine (loops_elseBlock hs h).optional.bind fun _ hlast => ?_
  exact .pure (.choice offset (List.forall_mem_cons.mpr ⟨hbody, hothers⟩) hlast)

/-- What is known of a loop besides its body is a condition. -/
theorem loops_forBlock (hP : ∀ {c c' : Cursor} {s : Surface}, c.Sits source →
    (style.forBlock c).result = some (s, c') →
      ∃ names items body, s = .each c.offset names items body ∧ P c.offset names) :
    style.forBlock.Stays source (Surface.Loops P) := by
  have hbody : style.forBlock.Stays source fun s =>
      ∀ offset names items body, s = .each offset names items body → AreLoops P body := by
    refine .named _ (Stays.offset.after fun offset => (stays_word _ _).after fun _ => ?_)
    refine (hs source).skip.after fun _ => ?_
    refine (Stays.named _ ((stays_forParen (hs source)).orElse (stays_forPlain (hs source)))).after
      fun header => (hs source).skip.after fun _ => h.bind fun body hbody => .pure ?_
    rintro _ _ _ _ heq
    cases heq
    exact hbody
  refine hbody.also fun hc hr hbody => ?_
  obtain ⟨names, items, body, rfl, hloop⟩ := hP hc hr
  exact .each items hloop (hbody _ _ _ _ rfl)

theorem loops_matchArm : style.matchArm.Stays source fun arm => AreLoops P arm.2 := by
  have hskip := (hs source).skip
  have hpattern : (named .pattern (orElse
      (do let _ ← token .wildcard wildcard; return none)
      (do return some (← patternExpr)))).StaysIn source := by
    refine .named _ (.orElse ?_ ?_)
    · exact (Stays.token _ fits_wildcard).after fun _ => .pure trivial
    · exact stays_patternExpr.after fun _ => .pure trivial
  refine .named _ (hpattern.after fun _ => hskip.after fun _ => (stays_mark _ _).after fun _ => ?_)
  refine hskip.after fun _ => h.bind fun _ hbody => hskip.after fun _ => ?_
  exact (stays_literal _).optional.after fun _ => hskip.after fun _ => .pure hbody

theorem loops_matchBlock : style.matchBlock.Stays source (Surface.Loops P) := by
  have hskip := (hs source).skip
  refine .named _ (Stays.offset.after fun offset => (stays_word _ _).after fun _ => ?_)
  refine hskip.after fun _ => stays_condition.after fun subject => (stays_literal _).after fun _ => ?_
  refine hskip.after fun _ => (loops_matchArm hs h).many.bind fun _ harms => ?_
  exact (stays_mark _ _).after fun _ => .pure (.cases offset subject harms)

theorem loops_control (hfor : style.forBlock.Stays source (Surface.Loops P)) :
    style.control.Stays source (Surface.Loops P) :=
  .named _ (.firstOf (by simp [loops_ifBlock hs h, hfor, loops_matchBlock hs h]))

omit h in
theorem loops_rawOutput : style.rawOutput.Stays source (Surface.Loops P) := by
  refine .named _ (Stays.offset.after fun offset => (stays_word _ _).after fun _ => ?_)
  refine (hs source).skip.after fun _ => (stays_literal _).after fun _ => ?_
  exact stays_exprBody.lexeme.after fun body => (stays_mark _ _).after fun _ => .pure (.raw offset body)

end ControlStyle

theorem loops_quoted : quoted.Stays source (Surface.Loops P) :=
  (Stays.token _ fits_quotedText).after fun literal => .pure (.quoted literal)

/-! ### The dialect of tags -/

namespace Rsx

variable {nodes : Matcher (List Surface)} (hs : ∀ source, nodes.Stays source (SurfaceSits source))
  (h : nodes.Stays source (AreLoops (LoopIn .rsx source)))

include h

theorem loops_tagTail :
    (tagTail nodes).Stays source fun tail => AreLoops (LoopIn .rsx source) tail.1 := by
  refine .named _ (.orElse ?_ (.named _ ?_))
  · exact (stays_mark _ _).after fun _ => .pure (List.forall_mem_nil _)
  · refine (stays_literal _).after fun _ => h.bind fun _ hchildren => ?_
    exact stays_closingTag.after fun _ => .pure hchildren

theorem loops_element : (element nodes).Stays source (Surface.Loops (LoopIn .rsx source)) := by
  refine .named _ (Stays.offset.after fun offset => (stays_literal _).after fun _ => ?_)
  refine (Stays.token _ fits_tagName).after fun name => stays_oneAttribute.many.after fun given => ?_
  refine stays_skip.after fun _ => (loops_tagTail h).bind fun tail hchildren => ?_
  exact .pure (.element offset name [] given tail.2 hchildren)

theorem loops_fragment : (fragment nodes).Stays source (Surface.Loops (LoopIn .rsx source)) := by
  refine .named _ ((stays_literal _).after fun _ => h.bind fun _ hchildren => ?_)
  exact (stays_mark _ _).after fun _ => .pure (.group hchildren)

theorem loops_block : (block nodes).Stays source (AreLoops (LoopIn .rsx source)) := by
  refine .named _ ((stays_literal _).after fun _ => h.bind fun _ hbody => ?_)
  exact (stays_mark _ _).after fun _ => .pure hbody

include hs

theorem loops_node : (node nodes).Stays source (Surface.Loops (LoopIn .rsx source)) := by
  have hstyle (source : List Char) : (style nodes).Sits source := sits_style (hs source)
  have hfor := ControlStyle.loops_forBlock hstyle (loops_block h)
    (ControlStyle.isLoop_forBlock (skips_rsx nodes) hstyle)
  refine .named _ (.firstOf ?_)
  simp only [List.forall_mem_cons, List.not_mem_nil, IsEmpty.forall_iff, implies_true, and_true]
  refine ⟨?_, ?_, loops_fragment h, ControlStyle.loops_rawOutput hstyle,
    ControlStyle.loops_control hstyle (loops_block h) hfor, loops_element h, ?_, loops_quoted, ?_⟩
  · exact (Stays.token _ fits_comment).after fun _ => .pure .comment
  · exact (Stays.token _ fits_doctype).after fun l => .pure (.doctype l.offset)
  · refine .named _ (Stays.offset.after fun offset => ?_)
    exact stays_braced.after fun body => .pure (.splice offset body)
  · exact (Stays.token _ fits_plainText).after fun text => .pure (.plain text)

omit h hs in
theorem loops_nodesWithin (n : Nat) :
    Stays source (nodesWithin n) (AreLoops (LoopIn .rsx source)) := by
  induction n with
  | zero => exact Stays.fail
  | succ n ih => exact (loops_node (fun _ => stays_nodesWithin n) ih).many

omit h hs in
theorem loops_document (depth : Nat) :
    (document depth).Stays source (AreLoops (LoopIn .rsx source)) :=
  .named _ ((loops_nodesWithin depth).bind fun _ hnodes =>
    (Stays.token _ fits_end).after fun _ => .pure hnodes)

end Rsx

/-! ### The dialect of blocks -/

namespace Maud

variable {nodes : Matcher (List Surface)} (hs : ∀ source, nodes.Stays source (SurfaceSits source))
  (h : nodes.Stays source (AreLoops (LoopIn .maud source)))

include h

theorem loops_block : (block nodes).Stays source (AreLoops (LoopIn .maud source)) := by
  refine .named _ ((stays_literal _).after fun _ => stays_skip.after fun _ => ?_)
  exact h.bind fun _ hbody => (stays_mark _ _).after fun _ => .pure hbody

theorem loops_element : (element nodes).Stays source (Surface.Loops (LoopIn .maud source)) := by
  refine .named _ (Stays.offset.after fun offset => (Stays.token _ fits_blockName).after fun name => ?_)
  refine stays_shorthand.many.after fun shorthands => stays_attributes.after fun given => ?_
  refine stays_skip.after fun _ => Stays.bind (.named _ (.orElse ?_ (loops_block h)))
    fun _ hchildren => .pure (.element offset name shorthands given none hchildren)
  exact (stays_mark _ _).after fun _ => .pure (List.forall_mem_nil _)

include hs

theorem loops_node : (node nodes).Stays source (Surface.Loops (LoopIn .maud source)) := by
  have hstyle (source : List Char) : (style nodes).Sits source := sits_style (hs source)
  have hfor := ControlStyle.loops_forBlock hstyle (loops_block h)
    (ControlStyle.isLoop_forBlock (skips_maud nodes) hstyle)
  refine .named _ (.firstOf ?_)
  simp only [List.forall_mem_cons, List.not_mem_nil, IsEmpty.forall_iff, implies_true, and_true]
  refine ⟨?_, ControlStyle.loops_rawOutput hstyle,
    ControlStyle.loops_control hstyle (loops_block h) hfor, ?_, loops_quoted, ?_, ?_,
    loops_element h⟩
  · exact (Stays.token _ (fits_literal _)).after fun l => .pure (.doctype l.offset)
  · refine .named _ (Stays.offset.after fun offset => ?_)
    exact stays_splice.after fun body => .pure (.splice offset body)
  · exact (Stays.token _ fits_number).after fun text => .pure (.number text)
  · exact (loops_block h).bind fun _ hbody => .pure (.group hbody)

omit h hs in
theorem loops_nodesWithin (n : Nat) :
    Stays source (nodesWithin n) (AreLoops (LoopIn .maud source)) := by
  induction n with
  | zero => exact Stays.fail
  | succ n ih =>
    exact Stays.many ((loops_node (fun _ => stays_nodesWithin n) ih).bind fun _ hnode =>
      stays_skip.after fun _ => .pure hnode)

omit h hs in
theorem loops_document (depth : Nat) :
    (document depth).Stays source (AreLoops (LoopIn .maud source)) :=
  .named _ (stays_skip.after fun _ => (loops_nodesWithin depth).bind fun _ hnodes =>
    (Stays.token _ fits_end).after fun _ => .pure hnodes)

end Maud

end Stencil.Source

namespace Stencil

open Source

/-! ## Trees -/

theorem Source.Surface.loops_held {P : Nat → Lexeme → Prop} (s : Surface) (h : s.Loops P) :
    ∀ t ∈ s.held, t.Loops P := by
  cases h with
  | group h => exact h
  | choice _ h hlast => exact forall_mem_branches.mpr ⟨h, hlast⟩
  | each _ _ h => exact h
  | cases _ _ h => exact forall_mem_bodies.mpr h
  | element _ _ _ _ _ h => exact h
  | _ => exact List.forall_mem_nil _

/-- A loop was read from a loop of the surface tree: its names are found in the text of the target
there, and its place is there. -/
theorem Node.MadeFrom.loop {P : Nat → Lexeme → Prop} {source : List Char} {names : List String}
    {items : Expr} {body : List Node} {place : Option Location} {s : Surface}
    (h : (Node.each names items body place).MadeFrom source s) (hs : s.Loops P) :
    ∃ offset target, P offset target ∧
      names = (loopNames target.chars).map String.ofList ∧ place = locate source offset := by
  generalize hn : Node.each names items body place = n at h
  cases h with
  | each offset target =>
    cases hn
    cases hs with
    | each _ hloop => exact ⟨offset, target, hloop, rfl, rfl⟩
  | element _ _ _ _ h =>
    rcases makeElement_eq_ok source h with ⟨_, -, rfl⟩ | rfl <;> cases hn
  | _ => cases hn

/-- Whatever is recognized, the loops of the surface tree are in the source. -/
theorem Source.loops_recognize {dialect : Dialect} {source : List Char} {nodes : List Surface}
    (h : recognize dialect source = .ok nodes) : AreLoops (LoopIn dialect source) nodes := by
  have hstart := Cursor.sits_start source
  obtain ⟨c, hresult⟩ := recognize_eq_ok h
  cases dialect with
  | rsx => exact ((Rsx.loops_document _ hstart).1 _ hresult).1
  | maud => exact ((Maud.loops_document _ hstart).1 _ hresult).1

/-- **The names of a loop are those of its target.** Every loop of a tree stands at an offset of the
source, with a target that the grammar has matched there. It binds exactly the names in this target,
in their order, if there is nothing but white space in the margins, as always in tags; and it binds
names only if this is so. -/
theorem loop_of_read {dialect : Dialect} {source : String} {nodes : List Node}
    (h : Source.read dialect source = .ok nodes) {names : List String} {items : Expr}
    {body : List Node} {place : Option Location} (hloop : .each names items body place ∈ walk nodes) :
    ∃ offset ids margins target, place = Source.locate source.toList offset ∧
      IsLoop dialect source.toList offset ids margins target ∧
      (∀ name ∈ ids, IsVariable name) ∧
      (names.map String.toList = ids ↔ IsGap margins) ∧
      ((∀ name ∈ names, IsVariable name.toList) ↔ IsGap margins) ∧
      (dialect = .rsx → IsGap margins) := by
  obtain ⟨surface, hsurface, hmade⟩ := made_readChars h
  obtain ⟨s, hs, hmade⟩ := sublistForall₂_mem hmade hloop
  have hloops := Surface.forall_mem_walk Surface.loops_held (loops_recognize hsurface) s hs
  obtain ⟨offset, target, ⟨ids, margins, hin⟩, rfl, rfl⟩ := hmade.loop hloops
  obtain ⟨-, -, -, ⟨htarget, -⟩, -⟩ := id hin
  have hvariables := htarget.isVariable
  have hnames : ((loopNames target.chars).map String.ofList).map String.toList =
      loopNames target.chars := by
    rw [List.map_map]
    exact (List.map_congr_left fun _ _ => String.toList_ofList).trans (List.map_id _)
  have hforall : (∀ name ∈ (loopNames target.chars).map String.ofList, IsVariable name.toList) ↔
      ∀ name ∈ loopNames target.chars, IsVariable name := by
    rw [List.forall_mem_map]
    exact forall₂_congr fun name _ => by rw [String.toList_ofList]
  refine ⟨offset, ids, margins, target.chars, rfl, hin, hvariables, ?_, ?_, ?_⟩
  · rw [hnames]
    rcases htarget.loopNames_or with ⟨hgap, heq⟩ | ⟨hgap, name, hname, hslash⟩
    · exact iff_of_true heq hgap
    · refine iff_of_false (fun heq => ?_) hgap
      exact absurd ((hvariables name (heq ▸ hname)).isWord '/' hslash) (by decide)
  · rw [hforall]
    rcases htarget.loopNames_or with ⟨hgap, heq⟩ | ⟨hgap, name, hname, hslash⟩
    · exact iff_of_true (heq ▸ hvariables) hgap
    · refine iff_of_false (fun hall => ?_) hgap
      exact absurd ((hall name hname).isWord '/' hslash) (by decide)
  · rintro rfl
    exact htarget.isGap_of_rsx

/-- The names that a loop binds. -/
def Node.binding? : Node → Option (List String)
  | .each names _ _ _ => some names
  | _ => none

theorem exists_binding {result : Except SourceError (List Node)} {names : List String}
    (h : (result.toOption.map fun nodes => (walk nodes).filterMap Node.binding?) = some [names]) :
    ∃ nodes items body place, result = .ok nodes ∧ .each names items body place ∈ walk nodes := by
  rcases result with e | nodes
  · cases h
  have hbound : (walk nodes).filterMap Node.binding? = [names] := Option.some.inj h
  have hmem : names ∈ (walk nodes).filterMap Node.binding? := by
    rw [hbound]
    exact List.mem_singleton_self names
  obtain ⟨n, hn, hnames⟩ := List.mem_filterMap.mp hmem
  cases n with
  | each names' items body place =>
    cases hnames
    exact ⟨nodes, items, body, place, rfl, hn⟩
  | _ => cases hnames

/-- Two names in two pairs of parentheses, with a comment in front of all. -/
theorem loop_of_read_pairs : ∃ nodes items body place,
    Source.read .maud "@for // each\n(( k , v ) in pairs) \x7b (k) \x7d" = .ok nodes ∧
      .each ["k", "v"] items body place ∈ walk nodes ∧ ∃ offset ids margins target,
        place = Source.locate "@for // each\n(( k , v ) in pairs) \x7b (k) \x7d".toList offset ∧
        IsLoop .maud "@for // each\n(( k , v ) in pairs) \x7b (k) \x7d".toList offset ids margins target ∧
        (["k", "v"].map String.toList = ids ↔ IsGap margins) := by
  have hpage : ((Source.read .maud
      "@for // each\n(( k , v ) in pairs) \x7b (k) \x7d").toOption.map fun nodes =>
        (walk nodes).filterMap Node.binding?) = some [["k", "v"]] := by
    decide +kernel
  obtain ⟨nodes, items, body, place, hread, hloop⟩ := exists_binding hpage
  obtain ⟨offset, ids, margins, target, hplace, hin, -, hnames, -⟩ := loop_of_read hread hloop
  exact ⟨nodes, items, body, place, hread, hloop, offset, ids, margins, target, hplace, hin, hnames⟩

/-- **A comment ends up in a name.** -/
theorem loop_of_read_comment : ¬ ∀ nodes names items body place,
    Source.read .maud "@for (// c\nx) in xs \x7b \x7d" = .ok nodes →
      .each names items body place ∈ walk nodes → ∀ name ∈ names, IsVariable name.toList := by
  intro hall
  have hpage : ((Source.read .maud "@for (// c\nx) in xs \x7b \x7d").toOption.map fun nodes =>
      (walk nodes).filterMap Node.binding?) = some [["// c\nx"]] := by
    decide +kernel
  obtain ⟨nodes, items, body, place, hread, hloop⟩ := exists_binding hpage
  have hname := hall nodes _ items body place hread hloop _ (List.mem_singleton_self _)
  exact absurd (hname.isWord '/' (by decide)) (by decide)

end Stencil
