import Stencil.Proofs.Agreement.Attributes
import Stencil.Proofs.Agreement.Nodes
import Stencil.Source.Maud

/-!
# Spelling with blocks

The dialect of blocks reads trees as they were spelled in it.
-/

namespace Stencil.Source.Maud

open Matcher

theorem skips : Skips skip where
  nothing h := by
    refine (Takes.scan (s := []) ?_).map fun _ _ => trivial
    exact congrArg some (spacesAndComments_firm h)
  space h := by
    refine (Takes.scan (s := [' ']) ?_).map fun _ _ => trivial
    exact congrArg some (spacesAndComments_space h)

/-! ## Attributes -/

theorem takes_splice {e : Expr} (he : Embeds true e.source.toList) (t : List Char) :
    splice.Takes (Spell.splice .maud e) t fun l => l.chars = e.source.toList := by
  have htext : Spell.splice .maud e = ['('] ++ (e.source.toList ++ [')']) := rfl
  rw [htext]
  refine Takes.named _ ((Takes.scan (literal_append _ _)).bind fun _ _ => ?_)
  refine (takes_exprBody he.balanced (.inl rfl) _).lexeme.bind fun l hl => ?_
  exact (Takes.token (literal_append _ _)).map fun _ _ => hl

theorem refuses_splice {c : Char} (hc : '(' ≠ c) (t : List Char) : splice.Refuses (c :: t) :=
  Refuses.named _ (Refuses.scan (literal_ne hc _ _)).bind

theorem readsValues : ReadsValues .maud attributeToggle attributeAssign where
  takes_toggle {e} he htrue t := by
    have htext : Spell.value .maud (.toggle e) = ['['] ++ (e.source.toList ++ [']']) := by
      simp [Spell.value, htrue]
    rw [htext]
    refine Takes.named _ ((Takes.scan (literal_append _ _)).bind fun _ _ => ?_)
    have hbody := takes_exprBody (embeds_identifier he).balanced (z := ']') (.inr (.inl rfl)) t
    refine hbody.lexeme.bind fun l hl => ?_
    exact (Takes.token (literal_append _ _)).map fun _ _ =>
      meansValue_toggle (Lexeme.spells (embeds_identifier he) hl)
  takes_assign ha htoggle t :=
    (takes_assigned skips (c := '(') (by decide) (fun _ => rfl) (fun _ => ⟨_, rfl⟩)
      (fun _ he t => takes_splice (embeds_identifier he) t) ha htoggle t).named _
  equals t := Refuses.named _ (Refuses.scan (literal_ne (by decide) _ _)).bind
  ends {t} ht := by
    refine ⟨Refuses.named _ (Refuses.scan ?_).bind,
      Refuses.named _ (refuses_mark skips (fun _ hc => Ne.symm hc.2.1) ht)⟩
    obtain ⟨u, rfl⟩ | ⟨c, u, rfl, -⟩ := ht
    · exact literal_ne (by decide) _ _
    · exact literal_ne (by decide) _ _

theorem takes_oneAttribute {a : Attribute} (ha : a.CanBeSpelled) {t : List Char}
    (ht : EndsAttribute t) :
    (do let _ ← space; oneAttribute).Takes ([' '] ++ (a.name.toList ++ Spell.value .maud a.value)) t
      (·.Means a) := by
  refine (ControlStyle.takes_space ?_).bind fun _ _ => (readsValues.takes_named _ ha ht).named _
  obtain ⟨c, more, hc, hletter, -⟩ := isWordName_plain ha.1
  rw [hc]
  exact (firm_of_nameChar (nameChar_of_letter hletter) _).stops

/-- The attributes in front of a block; none of them stands in parentheses. -/
theorem takes_attributes {as : List Attribute} (has : ∀ a ∈ as, a.CanBeSpelled) (t : List Char) :
    attributes.Takes (Spell.attributes .maud as) (' ' :: '{' :: t)
      fun surface => List.Forall₂ SurfaceAttribute.Means surface as := by
  have hend : EndsAttribute (' ' :: '{' :: t) := .inr ⟨'{', t, rfl, .inr rfl⟩
  have hnone : (do let _ ← space; oneAttribute).Refuses (' ' :: '{' :: t) :=
    (ControlStyle.takes_space (t := '{' :: t) (by rfl)).refuses fun _ _ =>
      Refuses.named _ (Refuses.token (by rfl)).bind
  exact Refuses.orElse (Refuses.named _ (refuses_mark skips (fun _ hc => Ne.symm hc.2.2.2)
    (endsAttribute_attributes .maud has hend)))
      (takesAll_attributes takes_oneAttribute hend hnone has).many

/-! ## What stands around nodes -/

/-- What may stand behind the last of some nodes. -/
def Closes (t : List Char) : Prop :=
  t = [] ∨ ∃ u, t = '}' :: u

theorem Closes.opens {t : List Char} (h : Closes t) : Opens t := by
  rcases h with rfl | ⟨u, rfl⟩
  · exact opens_nil
  · exact opens_cons (by decide) (by rfl)

/-- Every node begins with a character that is no space, and not with an alternative. -/
theorem opens_node {n : Node} (hn : n.CanBeSpelled) (t : List Char) :
    Opens (Spell.node .maud n ++ t) := by
  have hname {name : List Char} (h : IsWordName name) (attributes : List Attribute)
      (inside : List Char) : Opens (Spell.tagged .maud name attributes inside ++ t) := by
    obtain ⟨c, more, rfl, hletter, -⟩ := h
    have hat : '@' ≠ c := by
      rintro rfl
      exact absurd hletter (by decide)
    exact opens_cons hat (firm_of_nameChar (nameChar_of_letter hletter) _)
  by_cases hcontrol : n.IsControl
  · obtain ⟨x, u, hu, hx, -⟩ := ControlStyle.head_control .maud hcontrol hn
    rw [hu]
    exact opens_word hx _
  cases n with
  | element name attributes children void place =>
    rw [Node.CanBeSpelled] at hn
    exact hname (isWordName_plain hn.1) _ _
  | component reference attributes children place =>
    rw [Node.CanBeSpelled] at hn
    exact hname (isWordName_capital hn.1) _ _
  | doctype => exact opens_cons (c := '!') (by decide) (by rfl)
  | text content place =>
    obtain ⟨s, rfl⟩ | ⟨e, raw, rfl, -⟩ := Node.text_canBeSpelled hn
    · exact opens_cons (c := '"') (by decide) (by rfl)
    · cases raw with
      | true => exact opens_word (x := 'r') (by decide) _
      | false => exact opens_cons (c := '(') (by decide) (by rfl)
  | choice | each | cases => exact absurd trivial hcontrol
  | unknown => exact hn.elim

theorem opens_nodes {ns : List Node} (hns : NodesCanBeSpelled ns) {t : List Char} (ht : Opens t) :
    Opens (Spell.nodes .maud ns ++ t) := by
  cases ns with
  | nil => exact ht
  | cons n rest =>
    obtain ⟨u, hu⟩ := nodes_head (d := .maud) n rest
    rw [hu, List.append_assoc]
    exact opens_node (canBeSpelled_of_mem hns n (List.mem_cons_self ..)) _

/-! ## Elements -/

variable {inside : Matcher (List Surface)} {ns : List Node}

theorem blocks (hns : NodesCanBeSpelled ns) (h : Inside .maud Closes inside ns) :
    (style inside).Blocks .maud ns := by
  intro t
  have hclose : Closes ('}' :: t) := .inr ⟨t, rfl⟩
  have htext : Spell.block (Spell.nodes .maud ns) = ['{'] ++ (Spell.nodes .maud ns ++ ['}']) := rfl
  rw [htext]
  refine Takes.named _ ((Takes.scan (literal_append _ _)).bind fun _ _ => ?_)
  refine Takes.skip (skips.nothing ?_) fun _ _ => ?_
  · rw [List.append_assoc]
    exact (opens_nodes hns hclose.opens).1
  refine (h _ hclose).bind fun body hbody => ?_
  exact (Takes.token (literal_append _ _)).map fun _ _ => hbody

theorem refuses_block {c : Char} (hc : '{' ≠ c) (t : List Char) : (block inside).Refuses (c :: t) :=
  Refuses.named _ (Refuses.scan (literal_ne hc _ _)).bind

theorem takes_noShorthand (t : List Char) :
    (many shorthand).Takes [] (' ' :: t) fun found => found = [] := by
  have hnone : shorthand.Refuses (' ' :: t) := Refuses.named _ (Refuses.scan (by rfl)).bind
  have hall : TakesAll shorthand (fun _ (_ : Unit) => True) [] (' ' :: t) [] := .nil (.inr hnone)
  refine hall.many.mono fun found hfound => ?_
  cases hfound
  rfl

/-- An element or a component, as it is written. -/
theorem takes_element {name : List Char} (hname : IsWordName name) {as : List Attribute}
    (has : ∀ a ∈ as, a.CanBeSpelled) (h : (style inside).Blocks .maud ns) (t : List Char) :
    (element inside).Takes (Spell.tagged .maud name as (Spell.nodes .maud ns)) t fun s =>
      ∃ offset l surface children, s = .element offset l [] surface children none ∧
        l.chars = name ∧ List.Forall₂ SurfaceAttribute.Means surface as ∧ Mean children ns := by
  have htext : Spell.tagged .maud name as (Spell.nodes .maud ns) =
      name ++ (Spell.attributes .maud as ++ ([' '] ++ Spell.block (Spell.nodes .maud ns))) := by
    simp [Spell.tagged]
  -- there is a space behind the name in any case, so the name ends there and has no shorthand
  obtain ⟨v, hv⟩ : ∃ v, Spell.attributes .maud as ++
      ([' '] ++ Spell.block (Spell.nodes .maud ns)) ++ t = ' ' :: v := by
    cases as with
    | nil => exact ⟨_, rfl⟩
    | cons a rest => exact ⟨_, rfl⟩
  rw [htext]
  refine Takes.named _ (Takes.offset.skip fun offset _ => ?_)
  refine Takes.bind (P := fun l => l.chars = name) ?_ fun l hl => ?_
  · rw [hv]
    exact Takes.token (blockName_append hname)
  refine Takes.skip (P := fun found => found = []) ?_ fun shorthands hshorthands => ?_
  · rw [hv]
    exact takes_noShorthand v
  subst hshorthands
  refine (takes_attributes has _).bind fun surface hsurface => ?_
  refine (skips.space (firm_brace _)).bind fun _ _ => ?_
  have hsemicolon : (token .semicolon (literal [';'])).Refuses
      (Spell.block (Spell.nodes .maud ns) ++ t) :=
    Refuses.token (literal_ne (by decide) _ _)
  refine Takes.map ((hsemicolon.bind.orElse (h t)).named _) fun children hchildren => ?_
  exact ⟨offset, l, surface, children, rfl, hl, hsurface, hchildren⟩

/-! ## Nodes -/

/-- What is tried when it is neither a declaration nor begins with a word. -/
def laterChoices (inside : Matcher (List Surface)) : List (Matcher Surface) :=
  [named .spliceText do
      let offset ← Matcher.offset
      return .splice offset (← splice),
    quoted,
    do return .number (← token .number number),
    do return .group (← block inside),
    element inside]

/-- What is tried first: the declaration of the document type. -/
def declaration : Matcher Surface := do
  return .doctype (← token .doctype (literal ['!', 'D', 'O', 'C', 'T', 'Y', 'P', 'E'])).offset

theorem node_eq : node inside = named .blockNode (firstOf (declaration ::
    (style inside).rawOutput :: (style inside).control :: laterChoices inside)) :=
  rfl

theorem refuses_declaration {c : Char} (hc : '!' ≠ c) (t : List Char) :
    declaration.Refuses (c :: t) :=
  (Refuses.token (literal_ne hc _ t)).bind

/-- A text that begins with neither a bang nor an at sign is no declaration and no control block. -/
theorem takes_later {c : Char} (hbang : '!' ≠ c) (hat : '@' ≠ c) {s t u : List Char}
    (hs : s ++ t = c :: u) {P : Surface → Prop} (h : (firstOf (laterChoices inside)).Takes s t P) :
    (node inside).Takes s t P := by
  obtain ⟨hraw, hcontrol⟩ := ControlStyle.refuses_unmarked (style inside) hat u
  rw [node_eq]
  refine Takes.named _ (Refuses.firstOf ?_ (Refuses.firstOf ?_ (Refuses.firstOf ?_ h))) <;> rw [hs]
  · exact refuses_declaration hbang u
  · exact hraw
  · exact hcontrol

theorem refuses_spliceText {c : Char} (hc : '(' ≠ c) (t : List Char) :
    (named .spliceText do
      let offset ← Matcher.offset
      return Surface.splice offset (← splice)).Refuses (c :: t) :=
  Refuses.named _ (Refuses.offset fun _ => (refuses_splice hc t).bind)

/-- Where nodes end, no other node begins. -/
theorem refuses_node {t : List Char} (ht : Closes t) : t = [] ∨ (node inside).Refuses t := by
  rcases ht with rfl | ⟨u, rfl⟩
  · exact .inl rfl
  obtain ⟨hraw, hcontrol⟩ := ControlStyle.refuses_unmarked (style inside) (c := '}')
    (by decide) u
  rw [node_eq]
  refine .inr (Refuses.named _ (Refuses.all ?_))
  simp only [laterChoices, List.forall_mem_cons]
  exact ⟨refuses_declaration (by decide) u, hraw, hcontrol,
    refuses_spliceText (by decide) u, (Refuses.token (by rfl)).bind, (Refuses.token (by rfl)).bind,
    (refuses_block (by decide) u).bind,
    Refuses.named _ (Refuses.offset fun _ => (Refuses.token (by rfl)).bind), List.forall_mem_nil _⟩

/-- An element or a component is read as what it was spelled as. -/
theorem takes_tagged {name : List Char} (hname : IsWordName name) {as : List Attribute}
    (has : ∀ a ∈ as, a.CanBeSpelled) (h : (style inside).Blocks .maud ns) {n : Node}
    (hmeans : ∀ {offset l surface children}, l.chars = name →
      List.Forall₂ SurfaceAttribute.Means surface as → Mean children ns →
        (Surface.element offset l [] surface children none).Means n) (t : List Char) :
    (node inside).Takes (Spell.tagged .maud name as (Spell.nodes .maud ns)) t (·.Means n) := by
  have htake : (element inside).Takes (Spell.tagged .maud name as (Spell.nodes .maud ns)) t
      (·.Means n) := by
    refine (takes_element hname has h t).mono ?_
    rintro _ ⟨offset, l, surface, children, rfl, hl, hsurface, hchildren⟩
    exact hmeans hl hsurface hchildren
  obtain ⟨c, more, hc, hletter, -⟩ := hname
  obtain ⟨u, hu⟩ : ∃ u, Spell.tagged .maud name as (Spell.nodes .maud ns) ++ t = c :: u := by
    rw [hc]
    exact ⟨_, rfl⟩
  -- a letter begins none of the nodes that are tried before elements
  have hother := of_ascii (p := fun c => Text.isAsciiLetter c → '!' ≠ c ∧ '@' ≠ c ∧ '(' ≠ c ∧
    c ≠ '"' ∧ '{' ≠ c) (by decide) (ascii_of_letter hletter) hletter
  obtain ⟨hbang, hat, hparen, hquote, hbrace⟩ := hother
  refine takes_later hbang hat hu (Refuses.firstOf ?_ (Refuses.firstOf ?_ (Refuses.firstOf ?_
    (Refuses.firstOf ?_ (Takes.firstOf htake))))) <;> rw [hu]
  · exact refuses_spliceText hparen u
  · exact (Refuses.token (quotedText_none hquote u)).bind
  · exact (Refuses.token (number_none hletter u)).bind
  · exact (refuses_block hbrace u).bind

/-- A text with an at sign in front that is a control block, and no raw output. -/
theorem takes_marked {s t u : List Char} (hs : s = '@' :: u) {P : Surface → Prop}
    (hraw : (style inside).rawOutput.Refuses (s ++ t)) (h : (style inside).control.Takes s t P) :
    (node inside).Takes s t P := by
  rw [node_eq]
  refine Takes.named _ (Refuses.firstOf ?_ (Refuses.firstOf hraw (Takes.firstOf h)))
  rw [hs]
  exact refuses_declaration (by decide) _

theorem takes_control {n : Node} (hn : n.CanBeSpelled) (hcontrol : n.IsControl)
    (hlists : ∀ ns ∈ n.lists, (style inside).Blocks .maud ns) {t : List Char} (ht : Follows t) :
    (node inside).Takes (Spell.node .maud n) t (·.Means n) := by
  obtain ⟨hraw, htake⟩ := ControlStyle.takes_control skips ht hcontrol hn hlists
  obtain ⟨x, u, hu, -⟩ := ControlStyle.head_control .maud hcontrol hn
  exact takes_marked hu hraw htake

/-- A condition that can be embedded, among blocks. -/
theorem takes_test {e : Expr} (he : Embeds false e.source.toList)
    (hfirm : ∀ u, Firm (e.source.toList ++ u)) {body : List Node}
    (hbody : (style inside).Blocks .maud body) {t : List Char} (ht : Follows t)
    (place : Option Location) :
    (node inside).Takes (Spell.guarded .maud true [(some e, body)]) t
      (·.Means (.choice [(some e, body)] place)) := by
  have htake : (style inside).ifBlock.Takes (Spell.guarded .maud true [(some e, body)]) t
      (·.Means (.choice [(some e, body)] place)) :=
    ControlStyle.takes_ifBlock_of_embeds skips ht he hfirm (by rw [BranchesCanBeSpelled])
      (List.forall_mem_singleton.mpr hbody) place
  exact takes_marked rfl (ControlStyle.refuses_rawOutput (x := 'i') (by decide) _)
    (Takes.named _ (Takes.firstOf htake))

/-- The value of an expression among blocks, escaped or not. -/
theorem takes_dynamic {e : Expr} (he : Embeds true e.source.toList) (raw : Bool)
    (place : Option Location) (t : List Char) :
    (node inside).Takes (Spell.text .maud (.dynamic e raw)) t
      (·.Means (.text (.dynamic e raw) place)) := by
  cases raw with
  | true =>
    rw [node_eq]
    refine Takes.named _ (Refuses.firstOf ?_ (Takes.firstOf ?_))
    · exact refuses_declaration (c := '@') (by decide) _
    · exact ControlStyle.takes_rawOutput skips he place
  | false =>
    refine takes_later (c := '(') (by decide) (by decide) rfl (Takes.firstOf (Takes.named _ ?_))
    refine Takes.offset.skip fun offset _ => ?_
    exact (takes_splice he t).map fun l hl => means_splice (Lexeme.spells he hl) offset place

theorem takes_text {content : Content} {place : Option Location}
    (hn : (Node.text content place).CanBeSpelled) (t : List Char) :
    (node inside).Takes (Spell.text .maud content) t (·.Means (.text content place)) := by
  obtain ⟨text, rfl⟩ | ⟨e, raw, rfl, he⟩ := Node.text_canBeSpelled hn
  · refine takes_later (c := '"') (by decide) (by decide) rfl
      (Refuses.firstOf (refuses_spliceText (by decide) _) (Takes.firstOf ?_))
    exact (Takes.token (quotedText_append _ t)).map fun l hl => means_quoted hl place
  · exact takes_dynamic (embeds_identifier he) raw place t

theorem takes_node {n : Node} (hn : n.CanBeSpelled)
    (hlists : ∀ ns ∈ n.lists, (style inside).Blocks .maud ns) {t : List Char} (ht : Follows t) :
    (node inside).Takes (Spell.node .maud n) t (·.Means n) := by
  cases n with
  | element name attributes children void place =>
    rw [Node.CanBeSpelled] at hn
    exact takes_tagged (isWordName_plain hn.1) hn.2.1 (hlists children (List.mem_singleton_self _))
      (fun hl hsurface hchildren => means_element hn.1 hl hsurface hchildren
        (fun _ hc => by cases hc) _ void place) t
  | component reference attributes children place =>
    rw [Node.CanBeSpelled] at hn
    exact takes_tagged (isWordName_capital hn.1) hn.2.1
      (hlists children (List.mem_singleton_self _))
      (fun hl hsurface hchildren => means_component hn.1 hl hsurface hchildren
        (fun _ hc => by cases hc) _ place) t
  | text content place => exact takes_text hn t
  | doctype place =>
    refine Takes.named _ (Takes.firstOf ?_)
    exact (Takes.token (literal_append _ t)).map fun l _ => means_doctype l.offset place
  | choice | each | cases => exact takes_control hn trivial hlists ht
  | unknown => exact hn.elim

/-! ## Trees -/

/-- A node, and the space between it and the next. -/
theorem takes_spaced {n : Node} (hn : n.CanBeSpelled)
    (hlists : ∀ ns ∈ n.lists, (style inside).Blocks .maud ns) {gap t : List Char}
    (hgap : gap = [] ∨ gap = [' ']) (ht : Opens t) :
    (nodesWithin.spaced (node inside)).Takes (Spell.node .maud n ++ gap) t (·.Means n) := by
  rcases hgap with rfl | rfl
  · refine (takes_node hn hlists ht.follows).bind fun found hfound => ?_
    exact (skips.nothing ht.1).map fun _ _ => hfound
  · refine (takes_node hn hlists ht.follows_space).bind fun found hfound => ?_
    exact (skips.space ht.1).map fun _ _ => hfound

theorem readsNodes :
    ReadsNodes .maud (fun inside => nodesWithin.spaced (node inside)) nodesWithin Closes where
  within_succ _ := rfl
  ends ht := (refuses_node ht).imp_right Refuses.bind
  piece {inside n} hn hlists := by
    have hblocks : ∀ ns ∈ n.lists, (style inside).Blocks .maud ns := fun ns hns =>
      blocks (Node.canBeSpelled_lists hn ns hns) (hlists ns hns)
    refine ⟨fun t ht => ?_, fun m t hm => takes_spaced hn hblocks (.inr rfl) (opens_node hm t)⟩
    have hlast := takes_spaced hn hblocks (.inl rfl) ht.opens
    rwa [List.append_nil] at hlast

end Stencil.Source.Maud
