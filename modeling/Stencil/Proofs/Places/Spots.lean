import Stencil.Proofs.Places.Climbs
import Stencil.Proofs.Places.Errors
import Stencil.Proofs.Places.SurfaceWalk

/-!
# Spots in surface trees

The spots of a surface node are where it begins, if it becomes a node, and the offsets that a check
of the tree can point at besides: where the classes, ids and attributes of elements stand and where
the expressions in these begin. In whatever either grammar recognizes they ascend in the order of
reading.
-/

namespace Stencil.Source

open Matcher

/-! ## Spots -/

/-- Where the expression of a value begins. -/
def SurfaceValue.spots : SurfaceValue → List Spot
  | .expr body => [⟨body.offset, false⟩]
  | .toggle body => [⟨body.offset, false⟩]
  | _ => []

/-- Where an attribute and its expression begin. -/
def SurfaceAttribute.spots (a : SurfaceAttribute) : List Spot :=
  ⟨a.name.offset, false⟩ :: (a.value.map SurfaceValue.spots).getD []

/-- Where the expression of a class or an id begins. -/
def ShortValue.spots : ShortValue → List Spot
  | .expr body => [⟨body.offset, false⟩]
  | _ => []

/-- Where a class or an id and its expression begin. -/
def Shorthand.spots (s : Shorthand) : List Spot :=
  ⟨s.offset, true⟩ :: s.value.spots

/-- The spots of everything in the tag of an element. -/
def tagSpots (shorthands : List Shorthand) (attributes : List SurfaceAttribute) : List Spot :=
  shorthands.flatMap Shorthand.spots ++ attributes.flatMap SurfaceAttribute.spots

namespace Surface

/-- The spots of a surface node without those of the nodes that it holds. -/
def ownSpots : Surface → List Spot
  | .comment | .group _ => []
  | .doctype offset | .raw offset _ | .splice offset _ => startSpots offset
  | .choice offset _ _ | .each offset _ _ _ | .cases offset _ _ => startSpots offset
  | .element offset _ shorthands attributes _ _ =>
    startSpots offset ++ tagSpots shorthands attributes
  | .quoted l | .plain l | .number l => startSpots l.offset

/-- The spots of a node and of everything below it. -/
def spots (s : Surface) : List Spot :=
  s.walk.flatMap ownSpots

end Surface

/-- The spots of a list of nodes. -/
def spotsOf (nodes : List Surface) : List Spot :=
  nodes.flatMap Surface.spots

theorem spotsOf_append (nodes more : List Surface) :
    spotsOf (nodes ++ more) = spotsOf nodes ++ spotsOf more :=
  List.flatMap_append

theorem spotsOf_bodies {α : Type} (bodies : List (α × List Surface)) :
    spotsOf (bodies.flatMap Prod.snd) = bodies.flatMap fun b => spotsOf b.2 :=
  List.flatMap_assoc

theorem spotsOf_eq (nodes : List Surface) :
    spotsOf nodes = (nodes.flatMap Surface.walk).flatMap Surface.ownSpots :=
  List.flatMap_assoc.symm

@[simp] theorem spotsOf_nil : spotsOf [] = [] := rfl

namespace Surface

theorem spots_eq (s : Surface) : s.spots = s.ownSpots ++ spotsOf s.held := by
  rw [spots, walk_eq, List.flatMap_cons, ← spotsOf_eq]

/-- The spots of a node that holds nothing. -/
theorem spots_leaf {s : Surface} (h : s.held = []) : s.spots = s.ownSpots := by
  rw [spots_eq, h, spotsOf_nil, List.append_nil]

@[simp] theorem spots_comment : comment.spots = [] :=
  spots_leaf rfl

@[simp] theorem spots_group (nodes : List Surface) : (group nodes).spots = spotsOf nodes :=
  spots_eq _

@[simp] theorem spots_raw (offset : Nat) (body : Lexeme) :
    (raw offset body).spots = startSpots offset :=
  spots_leaf rfl

@[simp] theorem spots_choice (offset : Nat) (branches : List (Lexeme × List Surface))
    (last : Option (List Surface)) :
    (choice offset branches last).spots = startSpots offset ++
      ((branches.flatMap fun b => spotsOf b.2) ++ spotsOf (last.getD [])) := by
  rw [spots_eq, held, spotsOf_append, spotsOf_bodies, ownSpots]

@[simp] theorem spots_each (offset : Nat) (names items : Lexeme) (body : List Surface) :
    (each offset names items body).spots = startSpots offset ++ spotsOf body :=
  spots_eq _

@[simp] theorem spots_cases (offset : Nat) (subject : Lexeme)
    (arms : List (Option Lexeme × List Surface)) :
    (cases offset subject arms).spots =
      startSpots offset ++ arms.flatMap fun arm => spotsOf arm.2 := by
  rw [spots_eq, held, spotsOf_bodies, ownSpots]

@[simp] theorem spots_element (offset : Nat) (name : Lexeme) (shorthands : List Shorthand)
    (attributes : List SurfaceAttribute) (children : List Surface) (closing : Option Lexeme) :
    (element offset name shorthands attributes children closing).spots =
      startSpots offset ++ tagSpots shorthands attributes ++ spotsOf children :=
  spots_eq _

@[simp] theorem spots_splice (offset : Nat) (body : Lexeme) :
    (splice offset body).spots = startSpots offset :=
  spots_leaf rfl

end Surface

/-! ## Steps without spots -/

theorem moves_word (rule : Rule) (word : List Char) : (token rule (keyword word)).Moves :=
  moves_of_stays fun _ => stays_word rule word

theorem moves_mark (rule : Rule) (word : List Char) : (token rule (literal word)).Moves :=
  moves_of_stays fun _ => stays_mark rule word

theorem moves_literal (word : List Char) : (scan (literal word)).Moves :=
  moves_of_stays fun _ => stays_literal word

theorem moves_space : space.Moves :=
  moves_of_stays fun _ => stays_space

theorem moves_condition : condition.Moves :=
  moves_of_stays fun _ => stays_condition

theorem moves_exprBody : exprBody.Moves :=
  moves_of_stays fun _ => stays_exprBody

theorem advances_word (rule : Rule) {word : List Char} (h : word ≠ []) :
    (token rule (keyword word)).Advances :=
  .token (neverEmpty_keyword h)

theorem advances_literal {word : List Char} (h : word ≠ []) : (scan (literal word)).Advances :=
  .scan (neverEmpty_literal h)

/-! ## Control blocks -/

variable {short : Prop}

namespace ControlStyle

/-- What a dialect supplies goes forward, and blocks add the spots of their nodes. -/
structure Adds (short : Prop) (style : ControlStyle) : Prop where
  sits : ∀ source, style.Sits source
  block : style.block.Adds short spotsOf

variable {style : ControlStyle} (h : style.Adds short)

include h

theorem Adds.skip : style.skip.Moves :=
  moves_of_stays fun source => (h.sits source).skip

theorem adds_elseIf : style.elseIf.Adds short fun branch => spotsOf branch.2 := by
  intro pre
  refine .named _ (.after h.skip fun _ => .after (moves_word _ _) fun _ => ?_)
  refine .after h.skip fun _ => .after (moves_word _ _) fun _ => .after h.skip fun _ => ?_
  refine .after moves_condition fun test => (h.block pre).bind fun body => ?_
  exact .pure (List.Sublist.refl _)

theorem adds_elseBlock : style.elseBlock.Adds short spotsOf := by
  intro pre
  refine .named _ (.after h.skip fun _ => .after (moves_word _ _) fun _ => ?_)
  exact .after h.skip fun _ => h.block pre

theorem adds_ifBlock : style.ifBlock.Adds short Surface.spots := by
  intro pre
  refine .named _ (.start (advances_word _ (by simp)) fun offset _ => ?_)
  refine .after h.skip fun _ => .after moves_condition fun test => ?_
  refine (h.block _).bind fun body => ((adds_elseIf h).many _).bind fun others => ?_
  refine ((adds_elseBlock h).optional _).bind fun last => .pure ?_
  cases last with
  | none => simp
  | some body => simp

theorem moves_forHead : (named .forHead (orElse style.forParen style.forPlain)).Moves :=
  moves_of_stays fun source =>
    .named _ ((stays_forParen (h.sits source)).orElse (stays_forPlain (h.sits source)))

theorem adds_forBlock : style.forBlock.Adds short Surface.spots := by
  intro pre
  refine .named _ (.start (advances_word _ (by simp)) fun offset _ => ?_)
  refine .after h.skip fun _ => .after (moves_forHead h) fun header => .after h.skip fun _ => ?_
  exact (h.block _).bind fun body => .pure (by simp)

theorem adds_matchArm : style.matchArm.Adds short fun arm => spotsOf arm.2 := by
  intro pre
  have hpattern : (named .pattern (orElse
      (do let _ ← token .wildcard wildcard; return none)
      (do return some (← patternExpr)))).Moves :=
    moves_of_stays (P := fun _ _ => True) fun source => .named _ (.orElse
      ((Stays.token _ fits_wildcard).after fun _ => .pure trivial)
      (stays_patternExpr.after fun _ => .pure trivial))
  have hcomma : (optional (scan (literal [',']))).Moves :=
    moves_of_stays fun _ => (stays_literal _).optional
  refine .named _ (.after hpattern fun pattern => .after h.skip fun _ => ?_)
  refine .after (moves_mark _ _) fun _ => .after h.skip fun _ => (h.block pre).bind fun body => ?_
  refine .after h.skip fun _ => .after hcomma fun _ => .after h.skip fun _ => ?_
  exact .pure (List.Sublist.refl _)

theorem adds_matchBlock : style.matchBlock.Adds short Surface.spots := by
  intro pre
  refine .named _ (.start (advances_word _ (by simp)) fun offset _ => ?_)
  refine .after h.skip fun _ => .after moves_condition fun subject => ?_
  refine .after (moves_literal _) fun _ => .after h.skip fun _ => ?_
  refine ((adds_matchArm h).many _).bind fun arms => .after (moves_mark _ _) fun _ => ?_
  exact .pure (by simp)

theorem adds_control : style.control.Adds short Surface.spots := by
  intro pre
  refine .named _ (.firstOf ?_)
  simp only [List.forall_mem_cons, List.not_mem_nil, IsEmpty.forall_iff, implies_true, and_true]
  exact ⟨adds_ifBlock h pre, adds_forBlock h pre, adds_matchBlock h pre⟩

theorem adds_rawOutput : style.rawOutput.Adds short Surface.spots := by
  intro pre
  refine .named _ (.start (advances_word _ (by simp)) fun offset _ => ?_)
  refine .after h.skip fun _ => .after (moves_literal _) fun _ => ?_
  refine .after (moves_of_stays fun _ => stays_exprBody.lexeme) fun body => ?_
  exact .after (moves_mark _ _) fun _ => .pure (by simp)

end ControlStyle

/-- A token that is a node of its own. -/
theorem adds_token {rule : Rule} {scanner : List Char → Option Nat} {make : Lexeme → Surface}
    (h : NeverEmpty scanner) (hmake : ∀ l, (make l).spots = startSpots l.offset) :
    (do return make (← token rule scanner) : Matcher Surface).Adds short Surface.spots := by
  intro pre
  refine (Climbs.startToken h).bind fun l => .pure ?_
  rw [hmake]

theorem adds_quoted : quoted.Adds short Surface.spots :=
  adds_token neverEmpty_quotedText fun _ => Surface.spots_leaf rfl

/-! ## Attributes -/

/-- Two marks take a character at least. -/
theorem advances_enclosed (rule closing : Rule) {opening : List Char} (mark : List Char)
    (h : opening ≠ []) :
    (named rule do
      let _ ← scan (literal opening)
      let body ← lexeme exprBody
      let _ ← token closing (literal mark)
      return body).Advances :=
  .named rule ((advances_literal h).bind fun _ => moves_of_stays fun _ =>
    stays_exprBody.lexeme.after fun _ => (stays_mark closing mark).after fun _ =>
      .pure (P := fun _ => True) trivial)

/-- An expression between two marks. -/
theorem adds_enclosed (rule closing : Rule) (opening mark : List Char) :
    (named rule do
      let _ ← scan (literal opening)
      let body ← lexeme exprBody
      let _ ← token closing (literal mark)
      return body).Adds short fun body => [⟨body.offset, false⟩] := by
  intro pre
  refine .named rule (.after (moves_literal _) fun _ => (Climbs.lexeme moves_exprBody).bind ?_)
  exact fun body => .after (moves_mark _ _) fun _ => .pure (List.Sublist.refl _)

theorem adds_assigned {expr : Matcher Lexeme}
    (h : expr.Adds short fun body => [⟨body.offset, false⟩]) :
    (assigned expr).Adds short SurfaceValue.spots := by
  intro pre
  have hbetween : ∀ rule mark, (token rule (between mark)).Moves :=
    fun rule mark => moves_of_stays fun _ => Stays.token rule (fits_between mark)
  refine .firstOf ?_
  simp only [List.forall_mem_cons, List.not_mem_nil, IsEmpty.forall_iff, implies_true, and_true]
  refine ⟨?_, ?_, ?_⟩
  · exact .after (hbetween _ _) fun literal => .pure (by simp [SurfaceValue.spots])
  · exact (h pre).bind fun body => .pure (List.Sublist.refl _)
  · exact .after (hbetween _ _) fun literal => .pure (by simp [SurfaceValue.spots])

/-- A name, and maybe a value after it. -/
theorem adds_attribute {rule : Rule} {toggle assign : Matcher SurfaceValue}
    (htoggle : toggle.Adds short SurfaceValue.spots)
    (hassign : assign.Adds short SurfaceValue.spots) :
    (do
      let name ← token .attributeName attributeName
      let value ← optional (named rule (orElse toggle assign))
      return ⟨name, value⟩ : Matcher SurfaceAttribute).Adds short SurfaceAttribute.spots := by
  intro pre
  have hvalue : (named rule (orElse toggle assign)).Adds short SurfaceValue.spots :=
    fun pre => .named _ ((htoggle pre).orElse (hassign pre))
  refine Climbs.token.bind fun name => (hvalue.optional _).bind fun value => .pure ?_
  simp [SurfaceAttribute.spots]

/-! ## The dialect of tags -/

namespace Rsx

theorem moves_skip : skip.Moves :=
  moves_of_stays fun _ => stays_skip

theorem adds_braced : braced.Adds short fun body => [⟨body.offset, false⟩] :=
  adds_enclosed _ _ _ _

theorem adds_oneAttribute : oneAttribute.Adds short SurfaceAttribute.spots := by
  intro pre
  refine .named _ (.after moves_space fun _ => adds_attribute ?_ ?_ pre)
  · intro pre
    refine .named _ (.after moves_skip fun _ => .after (moves_literal _) fun _ => ?_)
    exact .after moves_skip fun _ => (adds_braced pre).bind fun _ => .pure (List.Sublist.refl _)
  · intro pre
    refine .named _ (.after moves_skip fun _ => .after (moves_literal _) fun _ => ?_)
    exact .after moves_skip fun _ => adds_assigned adds_braced pre

theorem moves_closingTag : closingTag.Moves :=
  moves_of_stays fun _ => stays_closingTag

variable {nodes : Matcher (List Surface)} (h : nodes.Adds short spotsOf)

include h

theorem adds_tagTail : (tagTail nodes).Adds short fun tail => spotsOf tail.1 := by
  intro pre
  refine .named _ (.orElse ?_ (.named _ ?_))
  · exact .after (moves_mark _ _) fun _ => .pure (by simp)
  · refine .after (moves_literal _) fun _ => (h pre).bind fun children => ?_
    exact .after moves_closingTag fun _ => .pure (List.Sublist.refl _)

theorem adds_element : (element nodes).Adds short Surface.spots := by
  intro pre
  refine .named _ (.start (advances_literal (by simp)) fun offset _ => ?_)
  refine .after (moves_of_stays fun _ => Stays.token _ fits_tagName) fun name => ?_
  refine (adds_oneAttribute.many _).bind fun attributes => .after moves_skip fun _ => ?_
  refine (adds_tagTail h _).bind fun tail => .pure ?_
  simp [tagSpots]

theorem adds_fragment : (fragment nodes).Adds short Surface.spots := by
  intro pre
  refine .named _ (.after (moves_literal _) fun _ => (h pre).bind fun children => ?_)
  exact .after (moves_mark _ _) fun _ => .pure (by simp)

theorem adds_block : (block nodes).Adds short spotsOf := by
  intro pre
  refine .named _ (.after (moves_literal _) fun _ => (h pre).bind fun children => ?_)
  exact .after (moves_mark _ _) fun _ => .pure (List.Sublist.refl _)

variable (hstays : ∀ source, nodes.Stays source (SurfaceSits source))

include hstays

theorem adds_style : (style nodes).Adds short :=
  ⟨fun source => sits_style (hstays source), adds_block h⟩

theorem adds_node : (node nodes).Adds short Surface.spots := by
  intro pre
  refine .named _ (.firstOf ?_)
  simp only [List.forall_mem_cons, List.not_mem_nil, IsEmpty.forall_iff, implies_true, and_true]
  refine ⟨?_, ?_, adds_fragment h pre, ControlStyle.adds_rawOutput (adds_style h hstays) pre,
    ControlStyle.adds_control (adds_style h hstays) pre, adds_element h pre, ?_,
    adds_quoted pre, ?_⟩
  · refine .after (moves_of_stays fun _ => Stays.token _ fits_comment) fun _ => ?_
    exact .pure (by simp)
  · exact adds_token neverEmpty_doctype (fun _ => Surface.spots_leaf rfl) pre
  · exact .named _ (.start (advances_enclosed _ _ _ (by simp)) fun offset _ => .pure (by simp))
  · exact adds_token neverEmpty_plainText (fun _ => Surface.spots_leaf rfl) pre

omit h hstays in
theorem adds_nodesWithin (n : Nat) : Adds short (nodesWithin n) spotsOf := by
  induction n with
  | zero => exact fun _ => Climbs.fail
  | succ n ih =>
    intro pre
    exact (adds_node ih (fun _ => stays_nodesWithin n)).many pre

omit h hstays in
theorem adds_document (depth : Nat) : (document depth).Adds short spotsOf := by
  intro pre
  refine .named _ ((adds_nodesWithin depth pre).bind fun nodes => ?_)
  refine .after (moves_of_stays fun _ => Stays.token _ fits_end) fun _ => ?_
  exact .pure (List.Sublist.refl _)

end Rsx

/-! ## The dialect of blocks -/

namespace Maud

theorem moves_skip : skip.Moves :=
  moves_of_stays fun _ => stays_skip

theorem adds_splice : splice.Adds short fun body => [⟨body.offset, false⟩] :=
  adds_enclosed _ _ _ _

theorem adds_oneAttribute : oneAttribute.Adds short SurfaceAttribute.spots := by
  intro pre
  refine .named _ (adds_attribute ?_ ?_ pre)
  · intro pre
    refine .named _ (.after (moves_literal _) fun _ => (Climbs.lexeme moves_exprBody).bind ?_)
    exact fun body => .after (moves_mark _ _) fun _ => .pure (List.Sublist.refl _)
  · intro pre
    refine .named _ (.after moves_skip fun _ => .after (moves_literal _) fun _ => ?_)
    exact .after moves_skip fun _ => adds_assigned adds_splice pre

theorem adds_attributes : attributes.Adds short fun l => l.flatMap SurfaceAttribute.spots := by
  have hcomma : (optional (scan (literal [',']))).Moves :=
    moves_of_stays fun _ => (stays_literal _).optional
  have hspaced : (do let _ ← space; oneAttribute).Adds short SurfaceAttribute.spots :=
    fun pre => .after moves_space fun _ => adds_oneAttribute pre
  have hone : (do
      let a ← oneAttribute
      skip
      let _ ← optional (scan (literal [',']))
      skip
      return a).Adds short SurfaceAttribute.spots := by
    intro pre
    refine (adds_oneAttribute pre).bind fun a => .after moves_skip fun _ => ?_
    exact .after hcomma fun _ => .after moves_skip fun _ => .pure (List.Sublist.refl _)
  intro pre
  refine .orElse (.named _ ?_) (hspaced.many pre)
  refine .after moves_skip fun _ => .after (moves_literal _) fun _ => .after moves_skip fun _ => ?_
  exact (hone.many pre).bind fun l => .after (moves_mark _ _) fun _ => .pure (List.Sublist.refl _)

theorem adds_shorthand (hshort : short) : shorthand.Adds short Shorthand.spots := by
  intro pre
  have hvalue : (named .shortValue (firstOf [
      do return .name (← token .shortName shortName),
      do return .quoted (← token .quotedText quotedText),
      do return .expr (← splice)])).Adds short ShortValue.spots := by
    intro pre
    refine .named _ (.firstOf ?_)
    simp only [List.forall_mem_cons, List.not_mem_nil, IsEmpty.forall_iff, implies_true, and_true]
    refine ⟨?_, ?_, ?_⟩
    · refine .after (moves_of_stays fun _ => Stays.token _ (fits_run1 _)) fun _ => ?_
      exact .pure (by simp [ShortValue.spots])
    · refine .after (moves_of_stays fun _ => Stays.token _ fits_quotedText) fun _ => ?_
      exact .pure (by simp [ShortValue.spots])
    · exact (adds_splice pre).bind fun body => .pure (List.Sublist.refl _)
  refine .named _ ((Climbs.scan (b := true) fun _ => hshort).bind fun mark => ?_)
  refine (hvalue _).bind fun value => .pure ?_
  simp [Shorthand.spots]

variable {nodes : Matcher (List Surface)}

theorem adds_block (h : nodes.Adds short spotsOf) : (block nodes).Adds short spotsOf := by
  intro pre
  refine .named _ (.after (moves_literal _) fun _ => .after moves_skip fun _ => ?_)
  exact (h pre).bind fun body => .after (moves_mark _ _) fun _ => .pure (List.Sublist.refl _)

variable (hshort : short) (h : nodes.Adds short spotsOf)

include h

include hshort in
theorem adds_element : (element nodes).Adds short Surface.spots := by
  intro pre
  have hend : (named .elementEnd (orElse
      (do let _ ← token .semicolon (literal [';']); return [])
      (block nodes))).Adds short spotsOf := by
    intro pre
    refine .named _ (.orElse ?_ (adds_block h pre))
    exact .after (moves_mark _ _) fun _ => .pure (by simp)
  refine .named _ (.start (.token neverEmpty_blockName) fun offset name => ?_)
  refine ((adds_shorthand hshort).many _).bind fun shorthands => ?_
  refine (adds_attributes _).bind fun attributes => .after moves_skip fun _ => ?_
  refine (hend _).bind fun children => .pure ?_
  simp [tagSpots]

variable (hstays : ∀ source, nodes.Stays source (SurfaceSits source))

include hstays

theorem adds_style : (style nodes).Adds short :=
  ⟨fun source => sits_style (hstays source), adds_block h⟩

include hshort in
theorem adds_node : (node nodes).Adds short Surface.spots := by
  intro pre
  refine .named _ (.firstOf ?_)
  simp only [List.forall_mem_cons, List.not_mem_nil, IsEmpty.forall_iff, implies_true, and_true]
  refine ⟨?_, ControlStyle.adds_rawOutput (adds_style h hstays) pre,
    ControlStyle.adds_control (adds_style h hstays) pre, ?_, adds_quoted pre, ?_, ?_,
    adds_element hshort h pre⟩
  · exact adds_token (neverEmpty_literal (by simp)) (fun _ => Surface.spots_leaf rfl) pre
  · exact .named _ (.start (advances_enclosed _ _ _ (by simp)) fun offset _ => .pure (by simp))
  · exact adds_token neverEmpty_number (fun _ => Surface.spots_leaf rfl) pre
  · exact (adds_block h pre).bind fun body => .pure (by simp)

omit h hstays in
include hshort in
theorem adds_nodesWithin (n : Nat) : Adds short (nodesWithin n) spotsOf := by
  induction n with
  | zero => exact fun _ => Climbs.fail
  | succ n ih =>
    intro pre
    have hspaced : (nodesWithin.spaced (node (nodesWithin n))).Adds short Surface.spots := by
      intro pre
      refine (adds_node hshort ih (fun _ => stays_nodesWithin n) pre).bind fun found => ?_
      exact .after moves_skip fun _ => .pure (List.Sublist.refl _)
    exact hspaced.many pre

omit h hstays in
include hshort in
theorem adds_document (depth : Nat) : (document depth).Adds short spotsOf := by
  intro pre
  refine .named _ (.after moves_skip fun _ => (adds_nodesWithin hshort depth pre).bind fun nodes => ?_)
  refine .after (moves_of_stays fun _ => Stays.token _ fits_end) fun _ => ?_
  exact .pure (List.Sublist.refl _)

end Maud

/-! ## Both dialects -/

theorem adds_grammar (dialect : Dialect) (depth : Nat) :
    (grammar dialect depth).Adds (dialect = .maud) spotsOf := by
  cases dialect with
  | rsx => exact Rsx.adds_document depth
  | maud => exact Maud.adds_document rfl depth

/-- **What is recognized stands in the order of the source.** The spots of a surface tree ascend,
and only the dialect of blocks has classes and ids in front of attributes. -/
theorem ascends_recognize {dialect : Dialect} {source : List Char} {nodes : List Surface}
    (h : recognize dialect source = .ok nodes) :
    Ascends (dialect = .maud) (spotsOf nodes) source.length := by
  obtain ⟨c, hresult⟩ := recognize_eq_ok h
  have hstays := (stays_grammar dialect _ (Cursor.sits_start source)).1 _ hresult
  exact (adds_grammar dialect _ [] _ _ hresult (.nil 0)).mono hstays.2.sits.offset_le

end Stencil.Source
