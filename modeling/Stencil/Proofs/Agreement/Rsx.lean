import Stencil.Proofs.Agreement.Attributes
import Stencil.Proofs.Agreement.Nodes
import Stencil.Source.Rsx

/-!
# Spelling with tags

The dialect of tags reads trees as they were spelled in it.
-/

namespace Stencil.Source.Rsx

open Matcher

theorem skips : Skips skip where
  nothing h := by
    refine (Takes.scan (s := []) ?_).map fun _ _ => trivial
    exact congrArg some (spaces_append (s := []) (List.forall_mem_nil _) h)
  space h := by
    refine (Takes.scan (s := [' ']) ?_).map fun _ _ => trivial
    exact congrArg some (spaces_append (s := [' ']) (by simp [Text.isSpace]) h)

/-! ## Attributes -/

theorem takes_braced {e : Expr} (he : Embeds true e.source.toList) (t : List Char) :
    braced.Takes (Spell.splice .rsx e) t fun l => l.chars = e.source.toList := by
  have htext : Spell.splice .rsx e = ['{'] ++ (e.source.toList ++ ['}']) := rfl
  rw [htext]
  refine Takes.named _ ((Takes.scan (literal_append _ _)).bind fun _ _ => ?_)
  refine (takes_exprBody he.balanced (.inr (.inr rfl)) _).lexeme.bind fun l hl => ?_
  exact (Takes.token (literal_append _ _)).map fun _ _ => hl

theorem readsValues : ReadsValues .rsx attributeToggle attributeAssign where
  takes_toggle {e} he htrue t := by
    have htext : Spell.value .rsx (.toggle e) = ['?', '='] ++ Spell.splice .rsx e := by
      simp [Spell.value, htrue]
    rw [htext]
    refine Takes.named _ (Takes.skip (skips.nothing (by rfl)) fun _ _ => ?_)
    refine (Takes.scan (literal_append _ _)).bind fun _ _ => ?_
    refine Takes.skip (skips.nothing (by rfl)) fun _ _ => ?_
    exact (takes_braced (embeds_identifier he) t).map fun l hl =>
      meansValue_toggle (Lexeme.spells (embeds_identifier he) hl)
  takes_assign ha htoggle t :=
    (takes_assigned skips (c := '{') (by decide) (fun _ => rfl) (fun _ => ⟨_, rfl⟩)
      (fun _ he t => takes_braced (embeds_identifier he) t) ha htoggle t).named _
  equals t := by
    refine Refuses.named _ ((skips.nothing (by rfl)).refuses (s := []) fun _ _ => ?_)
    exact (Refuses.scan (literal_ne (by decide) _ _)).bind
  ends ht :=
    ⟨Refuses.named _ (refuses_mark skips (fun _ hc => Ne.symm hc.1) ht),
      Refuses.named _ (refuses_mark skips (fun _ hc => Ne.symm hc.2.1) ht)⟩

theorem takes_oneAttribute {a : Attribute} (ha : a.CanBeSpelled) {t : List Char}
    (ht : EndsAttribute t) :
    oneAttribute.Takes ([' '] ++ (a.name.toList ++ Spell.value .rsx a.value)) t (·.Means a) := by
  refine Takes.named _ ((ControlStyle.takes_space ?_).bind fun _ _ =>
    readsValues.takes_named _ ha ht)
  obtain ⟨c, more, hc, hletter, -⟩ := isWordName_plain ha.1
  rw [hc]
  exact (firm_of_nameChar (nameChar_of_letter hletter) _).stops

/-! ## Elements -/

/-- What may stand behind the last of some nodes. -/
def Closes (t : List Char) : Prop :=
  t = [] ∨ (∃ u, t = '}' :: u) ∨ ∃ u, t = '<' :: '/' :: u

theorem Closes.opens {t : List Char} (h : Closes t) : Opens t := by
  rcases h with rfl | ⟨u, rfl⟩ | ⟨u, rfl⟩
  · exact opens_nil
  · exact opens_cons (by decide) (by rfl)
  · exact opens_cons (by decide) (by rfl)

variable {inside : Matcher (List Surface)} {ns : List Node}

theorem blocks (h : Inside .rsx Closes inside ns) : (style inside).Blocks .rsx ns := by
  intro t
  have htext : Spell.block (Spell.nodes .rsx ns) = ['{'] ++ (Spell.nodes .rsx ns ++ ['}']) := rfl
  rw [htext]
  refine Takes.named _ ((Takes.scan (literal_append _ _)).bind fun _ _ => ?_)
  refine (h _ (.inr (.inl ⟨t, rfl⟩))).bind fun body hbody => ?_
  exact (Takes.token (literal_append _ _)).map fun _ _ => hbody

theorem takes_closingTag {name : List Char} (hname : IsWordName name) (t : List Char) :
    closingTag.Takes (['<', '/'] ++ (name ++ ['>'])) t fun l => l.chars = name := by
  refine Takes.named _ ((Takes.scan (literal_append _ _)).bind fun _ _ => ?_)
  refine Takes.skip (skips.nothing ?_) fun _ _ => ?_
  · obtain ⟨c, more, rfl, hletter, -⟩ := hname
    exact firm_of_nameChar (nameChar_of_letter hletter) _
  refine (Takes.token (tagName_append hname (by rfl))).bind fun l hl => ?_
  refine Takes.skip (skips.nothing (by rfl)) fun _ _ => ?_
  exact (Takes.scan (s := ['>']) (literal_append _ _)).map fun _ _ => hl

theorem takes_tagTail {name : List Char} (hname : IsWordName name)
    (h : Inside .rsx Closes inside ns) (t : List Char) :
    (tagTail inside).Takes (['>'] ++ (Spell.nodes .rsx ns ++ (['<', '/'] ++ (name ++ ['>'])))) t
      fun r => Mean r.1 ns ∧ ∀ c ∈ r.2, c.chars = name := by
  refine Takes.named _ (Refuses.orElse (Refuses.token (literal_ne (by decide) _ _)).bind ?_)
  refine Takes.named _ ((Takes.scan (literal_append _ _)).bind fun _ _ => ?_)
  refine (h _ (.inr (.inr ⟨_, rfl⟩))).bind fun children hchildren => ?_
  refine (takes_closingTag hname t).map fun closing hclosing => ⟨hchildren, fun c hc => ?_⟩
  cases hc
  exact hclosing

/-- An element or a component, as it is written. -/
theorem takes_element {name : List Char} (hname : IsWordName name) {attributes : List Attribute}
    (hattributes : ∀ a ∈ attributes, a.CanBeSpelled) (h : Inside .rsx Closes inside ns)
    (t : List Char) :
    (element inside).Takes (Spell.tagged .rsx name attributes (Spell.nodes .rsx ns)) t fun s =>
      ∃ offset l surface children closing, s = .element offset l [] surface children closing ∧
        l.chars = name ∧ List.Forall₂ SurfaceAttribute.Means surface attributes ∧
        Mean children ns ∧ ∀ c ∈ closing, c.chars = l.chars := by
  have htext : Spell.tagged .rsx name attributes (Spell.nodes .rsx ns) =
      ['<'] ++ (name ++ (Spell.attributes .rsx attributes ++ (['>'] ++ (Spell.nodes .rsx ns ++
        (['<', '/'] ++ (name ++ ['>'])))))) := by
    simp [Spell.tagged]
  have hend (u : List Char) : EndsAttribute ('>' :: u) := .inl ⟨u, rfl⟩
  rw [htext]
  refine Takes.named _ (Takes.offset.skip fun offset _ => ?_)
  refine (Takes.scan (literal_append _ _)).bind fun _ _ => ?_
  refine (Takes.token (tagName_append hname ?_)).bind fun l hl => ?_
  · rw [List.append_assoc]
    exact (endsAttribute_attributes .rsx hattributes (hend _)).stops (by decide) (by decide)
  have hnone (u : List Char) : oneAttribute.Refuses ('>' :: u) :=
    Refuses.named _ (Refuses.token (run1_none (by rfl))).bind
  refine (takesAll_attributes takes_oneAttribute (hend _) (hnone _) hattributes).many.bind
    fun surface hsurface => ?_
  refine Takes.skip (skips.nothing (by rfl)) fun _ _ => ?_
  refine (takes_tagTail hname h t).map fun r hr => ?_
  refine ⟨offset, l, surface, r.1, r.2, rfl, hl, hsurface, hr.1, fun c hc => ?_⟩
  rw [hr.2 c hc, hl]

/-! ## Nodes -/

/-- A character that nodes in no tag begin with, or that closes a block. -/
def IsMark (c : Char) : Prop :=
  c = '@' ∨ c = '"' ∨ c = '{' ∨ c = '}'

/-- What is tried first: a comment, a declaration and a group. -/
def firstChoices (inside : Matcher (List Surface)) : List (Matcher Surface) :=
  [do let _ ← token .comment comment; return .comment,
    do return .doctype (← token .doctype doctype).offset,
    fragment inside]

/-- What is tried then, if it is no control block: elements and text. -/
def lastChoices (inside : Matcher (List Surface)) : List (Matcher Surface) :=
  [element inside,
    named .dynamicText do
      let offset ← Matcher.offset
      return .splice offset (← braced),
    quoted,
    do return .plain (← token .bareText plainText)]

theorem node_eq : node inside = named .node (firstOf (firstChoices inside ++
    ((style inside).rawOutput :: (style inside).control :: lastChoices inside))) :=
  rfl

theorem refuses_firstChoices {c : Char} (hc : IsMark c) (t : List Char) :
    ∀ p ∈ firstChoices inside, p.Refuses (c :: t) := by
  simp only [firstChoices, List.forall_mem_cons]
  rcases hc with rfl | rfl | rfl | rfl <;>
    exact ⟨(Refuses.token (by rfl)).bind, (Refuses.token (by rfl)).bind,
      Refuses.named _ (Refuses.scan (literal_ne (by decide) _ _)).bind, List.forall_mem_nil _⟩

/-- No angle bracket that another character than a bang or a bracket follows is tried first. -/
theorem refuses_firstChoices_tag {c : Char} (hbang : c ≠ '!') (hlower : c.toLower ≠ '!')
    (hclose : '>' ≠ c) (t : List Char) : ∀ p ∈ firstChoices inside, p.Refuses ('<' :: c :: t) := by
  simp only [firstChoices, List.forall_mem_cons]
  refine ⟨(Refuses.token (comment_none hbang t)).bind, (Refuses.token (doctype_none hlower t)).bind,
    Refuses.named _ (Refuses.scan ?_).bind, List.forall_mem_nil _⟩
  simp [literal, hclose]

theorem refuses_element {c : Char} (hc : '<' ≠ c) (t : List Char) :
    (element inside).Refuses (c :: t) :=
  Refuses.named _ (Refuses.offset fun _ => (Refuses.scan (literal_ne hc _ _)).bind)

theorem refuses_braced {c : Char} (hc : '{' ≠ c) (t : List Char) : braced.Refuses (c :: t) :=
  Refuses.named _ (Refuses.scan (literal_ne hc _ _)).bind

/-- Where nodes end, no other node begins. -/
theorem refuses_node {t : List Char} (ht : Closes t) : t = [] ∨ (node inside).Refuses t := by
  rcases ht with rfl | ⟨u, rfl⟩ | ⟨u, rfl⟩
  · exact .inl rfl
  · obtain ⟨hraw, hcontrol⟩ := ControlStyle.refuses_unmarked (style inside) (c := '}')
      (by decide) u
    rw [node_eq]
    refine .inr (Refuses.named _ (Refuses.all (List.forall_mem_append.mpr ⟨?_, ?_⟩)))
    · exact refuses_firstChoices (by simp [IsMark]) u
    simp only [lastChoices, List.forall_mem_cons]
    exact ⟨hraw, hcontrol, refuses_element (by decide) u,
      Refuses.named _ (Refuses.offset fun _ => (refuses_braced (by decide) u).bind),
      (Refuses.token (by rfl)).bind, (Refuses.token (by rfl)).bind, List.forall_mem_nil _⟩
  · obtain ⟨hraw, hcontrol⟩ := ControlStyle.refuses_unmarked (style inside) (c := '<')
      (by decide) ('/' :: u)
    rw [node_eq]
    refine .inr (Refuses.named _ (Refuses.all (List.forall_mem_append.mpr ⟨?_, ?_⟩)))
    · exact refuses_firstChoices_tag (by decide) (by decide) (by decide) u
    simp only [lastChoices, List.forall_mem_cons]
    refine ⟨hraw, hcontrol, ?_,
      Refuses.named _ (Refuses.offset fun _ => (refuses_braced (by decide) _).bind),
      (Refuses.token (by rfl)).bind, (Refuses.token (by rfl)).bind, List.forall_mem_nil _⟩
    refine Refuses.named _ (Refuses.offset fun _ => ?_)
    exact (Takes.scan (s := ['<']) (literal_append _ _)).refuses fun _ _ =>
      (Refuses.token (by rfl)).bind

/-- An element or a component is read as what it was spelled as. -/
theorem takes_tagged {name : List Char} (hname : IsWordName name) {attributes : List Attribute}
    (hattributes : ∀ a ∈ attributes, a.CanBeSpelled) (h : Inside .rsx Closes inside ns) {n : Node}
    (hmeans : ∀ {offset l surface children closing}, l.chars = name →
      List.Forall₂ SurfaceAttribute.Means surface attributes → Mean children ns →
        (∀ c ∈ closing, c.chars = l.chars) →
          (Surface.element offset l [] surface children closing).Means n) (t : List Char) :
    (node inside).Takes (Spell.tagged .rsx name attributes (Spell.nodes .rsx ns)) t
      (·.Means n) := by
  have htake : (element inside).Takes (Spell.tagged .rsx name attributes (Spell.nodes .rsx ns)) t
      (·.Means n) := by
    refine (takes_element hname hattributes h t).mono ?_
    rintro _ ⟨offset, l, surface, children, closing, rfl, hl, hsurface, hchildren, hclosing⟩
    exact hmeans hl hsurface hchildren hclosing
  obtain ⟨c, more, hc, hletter, -⟩ := hname
  have hhead : ∃ u,
      Spell.tagged .rsx name attributes (Spell.nodes .rsx ns) ++ t = '<' :: c :: u := by
    rw [hc]
    exact ⟨_, rfl⟩
  obtain ⟨u, hu⟩ := hhead
  -- a letter stands behind the angle bracket, so this is no comment, no declaration and no fragment
  have hfirst := of_nameChar (p := fun c => c != '!' && c.toLower != '!' && '>' != c) (by decide)
    (nameChar_of_letter hletter)
  simp only [Bool.and_eq_true, bne_iff_ne, ne_eq] at hfirst
  obtain ⟨hraw, hcontrol⟩ := ControlStyle.refuses_unmarked (style inside) (c := '<')
    (by decide) (c :: u)
  rw [node_eq]
  refine Takes.named _ (Refuses.firstOf_append ?_ (Refuses.firstOf ?_ (Refuses.firstOf ?_
    (Takes.firstOf htake))))
  · rw [hu]
    exact refuses_firstChoices_tag hfirst.1.1 hfirst.1.2 hfirst.2 u
  · rw [hu]
    exact hraw
  · rw [hu]
    exact hcontrol

/-- A text with an at sign in front that is a control block, and no raw output. -/
theorem takes_marked {s t u : List Char} (hs : s = '@' :: u) {P : Surface → Prop}
    (hraw : (style inside).rawOutput.Refuses (s ++ t)) (h : (style inside).control.Takes s t P) :
    (node inside).Takes s t P := by
  rw [node_eq]
  refine Takes.named _ (Refuses.firstOf_append ?_ (Refuses.firstOf hraw (Takes.firstOf h)))
  rw [hs]
  exact refuses_firstChoices (by simp [IsMark]) _

/-- A control block among tags. -/
theorem takes_control {n : Node} (hn : n.CanBeSpelled) (hcontrol : n.IsControl)
    (hlists : ∀ ns ∈ n.lists, Inside .rsx Closes inside ns) {t : List Char} (ht : Follows t) :
    (node inside).Takes (Spell.node .rsx n) t (·.Means n) := by
  obtain ⟨hraw, htake⟩ := ControlStyle.takes_control (show Skips (style inside).skip from skips) ht
    hcontrol hn fun l hl => blocks (hlists l hl)
  obtain ⟨x, u, hu, -⟩ := ControlStyle.head_control .rsx hcontrol hn
  exact takes_marked hu hraw htake

/-- A condition that can be embedded, among tags. -/
theorem takes_test {e : Expr} (he : Embeds false e.source.toList)
    (hfirm : ∀ u, Firm (e.source.toList ++ u)) {body : List Node}
    (hbody : Inside .rsx Closes inside body) {t : List Char} (ht : Follows t)
    (place : Option Location) :
    (node inside).Takes (Spell.guarded .rsx true [(some e, body)]) t
      (·.Means (.choice [(some e, body)] place)) := by
  have htake : (style inside).ifBlock.Takes (Spell.guarded .rsx true [(some e, body)]) t
      (·.Means (.choice [(some e, body)] place)) :=
    ControlStyle.takes_ifBlock_of_embeds skips ht he hfirm (by rw [BranchesCanBeSpelled])
      (List.forall_mem_singleton.mpr (blocks hbody)) place
  exact takes_marked rfl (ControlStyle.refuses_rawOutput (x := 'i') (by decide) _)
    (Takes.named _ (Takes.firstOf htake))

/-- A text that begins like one in quotes or in braces is neither markup nor a control block. -/
theorem takes_last {c : Char} (hc : IsMark c) (hat : '@' ≠ c) {s t u : List Char}
    (hs : s ++ t = c :: u) {P : Surface → Prop} (h : (firstOf (lastChoices inside)).Takes s t P) :
    (node inside).Takes s t P := by
  obtain ⟨hraw, hcontrol⟩ := ControlStyle.refuses_unmarked (style inside) hat u
  rw [node_eq]
  refine Takes.named _ (Refuses.firstOf_append ?_ (Refuses.firstOf ?_ (Refuses.firstOf ?_ h))) <;>
    rw [hs]
  · exact refuses_firstChoices hc u
  · exact hraw
  · exact hcontrol

/-- The value of an expression among tags, escaped or not. -/
theorem takes_dynamic {e : Expr} (he : Embeds true e.source.toList) (raw : Bool)
    (place : Option Location) (t : List Char) :
    (node inside).Takes (Spell.text .rsx (.dynamic e raw)) t
      (·.Means (.text (.dynamic e raw) place)) := by
  cases raw with
  | true =>
    rw [node_eq]
    refine Takes.named _ (Refuses.firstOf_append ?_ (Takes.firstOf ?_))
    · exact refuses_firstChoices (c := '@') (by simp [IsMark]) _
    · exact ControlStyle.takes_rawOutput skips he place
  | false =>
    refine takes_last (c := '{') (by simp [IsMark]) (by decide) rfl ?_
    refine Refuses.firstOf (refuses_element (by decide) _) (Takes.firstOf (Takes.named _ ?_))
    refine Takes.offset.skip fun offset _ => ?_
    exact (takes_braced he t).map fun l hl => means_splice (Lexeme.spells he hl) offset place

theorem takes_text {content : Content} {place : Option Location}
    (hn : (Node.text content place).CanBeSpelled) (t : List Char) :
    (node inside).Takes (Spell.text .rsx content) t (·.Means (.text content place)) := by
  obtain ⟨text, rfl⟩ | ⟨e, raw, rfl, he⟩ := Node.text_canBeSpelled hn
  · refine takes_last (c := '"') (by simp [IsMark]) (by decide) rfl ?_
    refine Refuses.firstOf (refuses_element (by decide) _) (Refuses.firstOf ?_ (Takes.firstOf ?_))
    · exact Refuses.named _ (Refuses.offset fun _ => (refuses_braced (by decide) _).bind)
    · exact (Takes.token (quotedText_append _ t)).map fun l hl => means_quoted hl place
  · exact takes_dynamic (embeds_identifier he) raw place t

theorem takes_node {n : Node} (hn : n.CanBeSpelled)
    (hlists : ∀ ns ∈ n.lists, Inside .rsx Closes inside ns) {t : List Char} (ht : Follows t) :
    (node inside).Takes (Spell.node .rsx n) t (·.Means n) := by
  cases n with
  | element name attributes children void place =>
    rw [Node.CanBeSpelled] at hn
    exact takes_tagged (isWordName_plain hn.1) hn.2.1 (hlists children (List.mem_singleton_self _))
      (fun hl hsurface hchildren hclosing =>
        means_element hn.1 hl hsurface hchildren hclosing _ void place) t
  | component reference attributes children place =>
    rw [Node.CanBeSpelled] at hn
    exact takes_tagged (isWordName_capital hn.1) hn.2.1
      (hlists children (List.mem_singleton_self _))
      (fun hl hsurface hchildren hclosing =>
        means_component hn.1 hl hsurface hchildren hclosing _ place) t
  | text content place => exact takes_text hn t
  | doctype place =>
    refine Takes.named _ (Refuses.firstOf (Refuses.token (by rfl)).bind (Takes.firstOf ?_))
    exact (Takes.token (doctype_append t)).map fun l _ => means_doctype l.offset place
  | choice | each | cases => exact takes_control hn trivial hlists ht
  | unknown => exact hn.elim

/-! ## Trees -/

/-- Every node begins with a character that is no space, and not with an alternative. -/
theorem opens_node {n : Node} (hn : n.CanBeSpelled) (t : List Char) :
    Opens (Spell.node .rsx n ++ t) := by
  by_cases hcontrol : n.IsControl
  · obtain ⟨x, u, hu, hx, -⟩ := ControlStyle.head_control .rsx hcontrol hn
    rw [hu]
    exact opens_word hx _
  cases n with
  | element | component | doctype => exact opens_cons (c := '<') (by decide) (by rfl)
  | text content place =>
    obtain ⟨s, rfl⟩ | ⟨e, raw, rfl, -⟩ := Node.text_canBeSpelled hn
    · exact opens_cons (c := '"') (by decide) (by rfl)
    · cases raw with
      | true => exact opens_word (x := 'r') (by decide) _
      | false => exact opens_cons (c := '{') (by decide) (by rfl)
  | choice | each | cases => exact absurd trivial hcontrol
  | unknown => exact hn.elim

theorem readsNodes : ReadsNodes .rsx node nodesWithin Closes where
  within_succ _ := rfl
  ends := refuses_node
  piece hn hlists := by
    refine ⟨fun t ht => takes_node hn hlists ht.opens.follows, fun m t hm => ?_⟩
    rw [show Spell.gap .rsx = [] from rfl, List.append_nil]
    exact takes_node hn hlists (opens_node hm t).follows

end Stencil.Source.Rsx
