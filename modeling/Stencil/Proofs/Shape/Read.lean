import Stencil.Proofs.Places.Errors
import Stencil.Proofs.Shape.Formed

/-!
# Trees that are read are formed

Surface trees that are made of pieces of a source are read as trees that are formed, or refused with
an error that is about the source. Output is left as it is only if the source says `@raw` somewhere.
-/

namespace Stencil.Source

variable {source : List Char}

/-! ## Attributes -/

/-- The value of an attribute as it is written: a text, an escaped value or a toggle. -/
def IsGivenValue (content : Content) : Prop :=
  content.IsPart ∨ ∃ e, content = .toggle e

/-- An attribute as it is written, with a place in the source. -/
structure IsGiven (source : List Char) (a : Attribute) : Prop where
  value : IsGivenValue a.value
  place : ∃ offset ≤ source.length, a.place = locate source offset

theorem IsGiven.formed {a : Attribute} (h : IsGiven source a) : a.Formed := by
  unfold Attribute.Formed
  rcases h.value with hpart | ⟨e, he⟩
  · cases hvalue : a.value <;> rw [hvalue] at hpart
    · trivial
    · exact hpart
    · trivial
    · cases hpart
    · cases hpart
  · rw [he]
    trivial

theorem lands_readValue {name : Lexeme} (hname : name.Sits source) {value : Option SurfaceValue}
    (hvalue : ∀ v ∈ value, v.Sits source) :
    Lands source (readValue source name value) IsGivenValue := by
  unfold readValue
  split
  · exact (lands_ofSource _ hname.offset_le).bind fun e _ => .ok (.inr ⟨e, rfl⟩)
  · exact .ok (.inl trivial)
  · next literal =>
    have hl : literal.Sits source := hvalue _ rfl
    exact .error hl.offset_le nofun
  · next body =>
    have hbody : body.Sits source := hvalue _ rfl
    exact (lands_readExpr hbody).bind fun e _ => .ok (.inl rfl)
  · next body =>
    have hbody : body.Sits source := hvalue _ rfl
    exact (lands_readExpr hbody).bind fun e _ => .ok (.inr ⟨e, rfl⟩)

theorem lands_readAttribute {a : SurfaceAttribute} (h : a.Sits source) :
    Lands source (readAttribute source a) (IsGiven source) :=
  (lands_readValue h.name h.value).bind fun _ hvalue =>
    .ok ⟨hvalue, a.name.offset, h.name.offset_le, rfl⟩

theorem lands_readShortValue {value : ShortValue} (h : value.Sits source) :
    Lands source (readShortValue source value) IsGivenValue := by
  cases value with
  | name text => exact .ok (.inl trivial)
  | quoted literal => exact .ok (.inl trivial)
  | expr body => exact (lands_readExpr h).bind fun e _ => .ok (.inl rfl)

theorem lands_readShorthand {s : Shorthand} (h : s.Sits source) :
    Lands source (readShorthand source s) (IsGiven source) :=
  (lands_readShortValue h.value).bind fun _ hvalue =>
    .ok ⟨hvalue, s.offset, h.offset_le, rfl⟩

theorem lands_readAttributes {shorthands : List Shorthand} {attributes : List SurfaceAttribute}
    (hshort : ∀ s ∈ shorthands, s.Sits source) (h : ∀ a ∈ attributes, a.Sits source) :
    Lands source (readAttributes source shorthands attributes) fun given =>
      ∀ a ∈ given.1, IsGiven source a := by
  have hfront := Lands.mapM fun s hs => lands_readShorthand (hshort s hs)
  have hback := Lands.mapM fun a ha => lands_readAttribute (h a ha)
  exact hfront.bind fun front hf => hback.bind fun back hb =>
    .ok (List.forall_mem_append.mpr ⟨hf, hb⟩)

/-! ## Classes -/

/-- What was gathered is formed, and the classes can be joined. -/
structure Gathered.Formed (g : Gathered) : Prop where
  front : ∀ a ∈ g.front, a.Formed
  classes : ∀ c ∈ g.classes, c.IsPart
  back : ∀ a ∈ g.back, a.Formed

theorem isPart_classValue {a : Attribute} (h : IsGiven source a) {value : Content}
    (hclass : classValue? a = some value) : value.IsPart := by
  unfold classValue? at hclass
  split at hclass
  · have hvalue := h.value
    split at hclass
    · cases hclass
      trivial
    · next e raw heq =>
      cases hclass
      rw [heq] at hvalue
      rcases hvalue with hpart | ⟨_, htoggle⟩
      · exact hpart
      · cases htoggle
    · cases hclass
  · cases hclass

theorem lands_add {g : Gathered} (hg : g.Formed) {a : Attribute} (ha : IsGiven source a) :
    Lands source (g.add a) Gathered.Formed := by
  unfold Gathered.add
  split
  · next value hclass =>
    exact .ok { hg with
      classes := List.forall_mem_cons.mpr ⟨isPart_classValue ha hclass, hg.classes⟩ }
  · split
    · obtain ⟨offset, hle, hplace⟩ := ha.place
      rw [hplace]
      exact .error hle nofun
    · dsimp only
      split
      · exact .ok { hg with front := List.forall_mem_cons.mpr ⟨ha.formed, hg.front⟩ }
      · exact .ok { hg with back := List.forall_mem_cons.mpr ⟨ha.formed, hg.back⟩ }

/-- Parts that are not all texts have a value among them. -/
theorem exists_dynamic {classes : List Content} (h : ∀ c ∈ classes, c.IsPart)
    (hall : ¬ classes.all (fun c => c.literal?.isSome) = true) :
    ∃ e, .dynamic e false ∈ classes := by
  simp only [List.all_eq_true, not_forall] at hall
  obtain ⟨c, hc, hnone⟩ := hall
  have hpart := h c hc
  cases c with
  | literal text => exact absurd rfl hnone
  | dynamic e raw =>
    obtain rfl : raw = false := hpart
    exact ⟨e, hc⟩
  | _ => cases hpart

theorem formed_class {classes : List Content} (h : ∀ c ∈ classes, c.IsPart)
    (place : Option Location) : Attribute.Formed ⟨"class", joinClasses classes, place⟩ := by
  unfold Attribute.Formed joinClasses
  dsimp only
  split
  · trivial
  · next hall => exact ⟨rfl, h, exists_dynamic h hall⟩

theorem formed_attributes {g : Gathered} (h : g.Formed) : ∀ a ∈ g.attributes, a.Formed := by
  unfold Gathered.attributes
  have hfront : ∀ a ∈ g.front.reverse, a.Formed := fun a ha => h.front a (List.mem_reverse.mp ha)
  split
  · exact hfront
  · next place _ =>
    have hclasses : ∀ c ∈ g.classes.reverse, c.IsPart :=
      fun c hc => h.classes c (List.mem_reverse.mp hc)
    have hback : ∀ a ∈ g.back.reverse, a.Formed := fun a ha => h.back a (List.mem_reverse.mp ha)
    exact List.forall_mem_append.mpr
      ⟨hfront, List.forall_mem_cons.mpr ⟨formed_class hclasses place, hback⟩⟩

theorem lands_settleClasses {given : List Attribute × Bool}
    (h : ∀ a ∈ given.1, IsGiven source a) :
    Lands source (settleClasses given) fun l => ∀ a ∈ l, a.Formed := by
  obtain ⟨attributes, _ | _⟩ := given
  · exact .ok fun a ha => (h a ha).formed
  · have hstart : Gathered.Formed {} :=
      ⟨List.forall_mem_nil _, List.forall_mem_nil _, List.forall_mem_nil _⟩
    have hfold := Lands.foldlM (f := Gathered.add) (fun a ha g hg => lands_add hg (h a ha)) hstart
    exact hfold.bind fun g hg => .ok (formed_attributes hg)

/-! ## Items -/

/-- The node of an item is formed, at every depth. -/
def Item.Formed (raw : Prop) (i : Item) : Prop :=
  ∀ m ∈ i.toNode.walk, m.Formed raw

variable {raw : Prop}

theorem formed_plain (text : List Char) (place : Option Location) :
    (Item.plain text place).Formed raw := by
  intro m hm
  rw [Item.toNode, Node.walk_text, List.mem_singleton] at hm
  subst hm
  exact Node.formed_text (Content.isText_literal raw _) place

theorem formed_textItem {content : Content} (h : content.IsText raw) (place : Option Location) :
    (Item.node (.text content place)).Formed raw := by
  intro m hm
  rw [Item.toNode, Node.walk_text, List.mem_singleton] at hm
  subst hm
  exact Node.formed_text h place

theorem formed_trimStart {i : Item} (h : i.Formed raw) : i.trimStart.Formed raw := by
  cases i with
  | node n => exact h
  | plain text place => exact formed_plain _ _

theorem formed_trimEnd {i : Item} (h : i.Formed raw) : i.trimEnd.Formed raw := by
  cases i with
  | node n => exact h
  | plain text place => exact formed_plain _ _

theorem formed_trimFirst {items : List Item} (h : ∀ i ∈ items, i.Formed raw) :
    ∀ i ∈ trimFirst items, i.Formed raw := by
  cases items with
  | nil => exact h
  | cons i rest =>
    obtain ⟨hi, hrest⟩ := List.forall_mem_cons.mp h
    exact List.forall_mem_cons.mpr ⟨formed_trimStart hi, hrest⟩

theorem formed_trimLast {items : List Item} (h : ∀ i ∈ items, i.Formed raw) :
    ∀ i ∈ trimLast items, i.Formed raw := by
  fun_induction trimLast items with
  | case1 => exact h
  | case2 i =>
    exact List.forall_mem_singleton.mpr (formed_trimEnd (h i (List.mem_singleton_self i)))
  | case3 i rest _ ih =>
    obtain ⟨hi, hrest⟩ := List.forall_mem_cons.mp h
    exact List.forall_mem_cons.mpr ⟨hi, ih hrest⟩

theorem formed_childNodes {items : List Item} (h : ∀ i ∈ items, i.Formed raw) :
    Stencil.Formed raw (childNodes items) := by
  refine formed_mergeTexts fun m hm => ?_
  obtain ⟨n, hn, hm⟩ := mem_walk.mp hm
  obtain ⟨i, hi, rfl⟩ := List.mem_map.mp hn
  exact h i hi m hm

theorem formed_blockNodes {items : List Item} (h : ∀ i ∈ items, i.Formed raw) :
    Stencil.Formed raw (blockNodes items) :=
  formed_childNodes (formed_trimLast (formed_trimFirst h))

/-! ## Nodes -/

/-- A node that holds one list of nodes. -/
theorem formed_holder {n : Node} {nodes : List Node} (hwalk : n.walk = n :: walk nodes)
    (hlists : n.lists = [nodes]) (hn : n.Fits raw) (h : Stencil.Formed raw nodes) :
    (Item.node n).Formed raw := by
  intro m hm
  rw [Item.toNode, hwalk] at hm
  rcases List.mem_cons.mp hm with rfl | hm
  · exact ⟨hn, hlists ▸ List.forall_mem_singleton.mpr h.separated⟩
  · exact h.formed m hm

/-- A node that holds guarded bodies. -/
theorem formed_control {n : Node} {bodies : List (Option Expr × List Node)}
    (hwalk : n.walk = n :: walkBodies bodies) (hlists : n.lists = bodies.map Prod.snd)
    (hn : n.Fits raw) (h : ∀ b ∈ bodies, Stencil.Formed raw b.2) : (Item.node n).Formed raw := by
  intro m hm
  rw [Item.toNode, hwalk] at hm
  rcases List.mem_cons.mp hm with rfl | hm
  · refine ⟨hn, fun nodes hnodes => ?_⟩
    rw [hlists] at hnodes
    obtain ⟨b, hb, rfl⟩ := List.mem_map.mp hnodes
    exact (h b hb).separated
  · obtain ⟨b, hb, hm⟩ := mem_walkBodies.mp hm
    exact (h b hb).formed m hm

theorem lands_makeElement (offset : Nat) {name : Lexeme} (hname : name.Sits source)
    {attributes : List Attribute} (ha : ∀ a ∈ attributes, a.Formed) {children : List Node}
    (h : Stencil.Formed raw children) :
    Lands source (makeElement source offset name attributes children) fun n =>
      (Item.node n).Formed raw := by
  unfold makeElement
  by_cases hcomponent : isComponentName name.chars = true
  · rw [if_pos hcomponent]
    refine (lands_readExpr hname).bind fun reference hsource => .ok ?_
    refine formed_holder (by rw [Node.walk]) rfl ⟨?_, ha⟩ h
    rw [hsource, String.toList_ofList, trim_of_notBlank (notBlank_of_componentName hcomponent)]
    exact hcomponent
  · rw [if_neg hcomponent]
    refine .ok (formed_holder (by rw [Node.walk]) rfl ⟨?_, ha⟩ h)
    rw [Lexeme.text, String.toList_ofList]
    exact Bool.eq_false_iff.mpr hcomponent

theorem loopNames_ne_nil (target : List Char) : loopNames target ≠ [] := by
  have hsplit : ∀ text, splitOnChar ',' text ≠ [] := by
    intro text
    cases text with
    | nil => exact List.cons_ne_nil _ _
    | cons c rest =>
      unfold splitOnChar
      split
      · exact List.cons_ne_nil _ _
      · split <;> exact List.cons_ne_nil _ _
  unfold loopNames
  intro h
  exact hsplit _ (List.map_eq_nil_iff.mp h)

/-- What a surface node stands for is formed, or its error is about the source. -/
def Surface.Lands (source : List Char) (s : Surface) : Prop :=
  Source.Lands source (readNode source s) fun items =>
    ∀ i ∈ items, i.Formed (rawWord <:+: source)

theorem lands_readNodes {nodes : List Surface} (h : ∀ s ∈ nodes, s.Lands source) :
    Lands source (readNodes source nodes) fun items =>
      ∀ i ∈ items, i.Formed (rawWord <:+: source) := by
  induction nodes with
  | nil =>
    rw [readNodes]
    exact .ok (List.forall_mem_nil _)
  | cons s rest ih =>
    rw [readNodes]
    obtain ⟨hs, hrest⟩ := List.forall_mem_cons.mp h
    exact Lands.bind hs fun first hfirst => (ih hrest).bind fun others hothers =>
      .ok (List.forall_mem_append.mpr ⟨hfirst, hothers⟩)

/-- Bodies that are formed, each behind a condition. -/
theorem lands_readBranches {branches : List (Lexeme × List Surface)}
    (htests : ∀ b ∈ branches, b.1.Sits source) (h : ∀ b ∈ branches, ∀ s ∈ b.2, s.Lands source) :
    Lands source (readBranches source branches) fun bodies =>
      bodies.length = branches.length ∧
        ∀ b ∈ bodies, b.1.isSome ∧ Stencil.Formed (rawWord <:+: source) b.2 := by
  induction branches with
  | nil =>
    rw [readBranches]
    exact .ok ⟨rfl, List.forall_mem_nil _⟩
  | cons b rest ih =>
    rw [readBranches]
    obtain ⟨htest, htests⟩ := List.forall_mem_cons.mp htests
    obtain ⟨hbody, hrest⟩ := List.forall_mem_cons.mp h
    refine (lands_readExpr htest).bind fun e _ => ?_
    refine (lands_readNodes hbody).bind fun body hformed => ?_
    refine (ih htests hrest).bind fun others hothers => ?_
    exact .ok ⟨congrArg (· + 1) hothers.1,
      List.forall_mem_cons.mpr ⟨⟨rfl, formed_blockNodes hformed⟩, hothers.2⟩⟩

theorem lands_readArms {arms : List (Option Lexeme × List Surface)}
    (hpatterns : ∀ arm ∈ arms, ∀ pattern ∈ arm.1, pattern.Sits source)
    (h : ∀ arm ∈ arms, ∀ s ∈ arm.2, s.Lands source) :
    Lands source (readArms source arms) fun bodies =>
      ∀ b ∈ bodies, Stencil.Formed (rawWord <:+: source) b.2 := by
  induction arms with
  | nil =>
    rw [readArms]
    exact .ok (List.forall_mem_nil _)
  | cons arm rest ih =>
    obtain ⟨hpattern, hfurther⟩ := List.forall_mem_cons.mp hpatterns
    obtain ⟨hbody, hrest⟩ := List.forall_mem_cons.mp h
    have hbodies : Lands source (readNodes source arm.2) _ := lands_readNodes hbody
    obtain ⟨_ | pattern, body⟩ := arm
    · rw [readArms]
      refine hbodies.bind fun inside hinside => (ih hfurther hrest).bind fun others hothers => ?_
      exact .ok (List.forall_mem_cons.mpr ⟨formed_blockNodes hinside, hothers⟩)
    · rw [readArms]
      refine (lands_readExpr (hpattern pattern rfl)).bind fun e _ => ?_
      refine hbodies.bind fun inside hinside => (ih hfurther hrest).bind fun others hothers => ?_
      exact .ok (List.forall_mem_cons.mpr ⟨formed_blockNodes hinside, hothers⟩)

theorem lands_of_sits {s : Surface} (hs : s.Sits source) : s.Lands source := by
  unfold Surface.Lands
  induction hs with
  | comment =>
    rw [readNode]
    exact .ok (List.forall_mem_nil _)
  | doctype h =>
    rw [readNode]
    refine .ok (List.forall_mem_singleton.mpr fun m hm => ?_)
    rw [Item.toNode, Node.walk_doctype, List.mem_singleton] at hm
    subst hm
    exact ⟨trivial, List.forall_mem_nil _⟩
  | group _ ih =>
    rw [readNode]
    exact lands_readNodes ih
  | raw h hbody hword =>
    rw [readNode]
    exact (lands_readExpr hbody).bind fun e _ => .ok (List.forall_mem_singleton.mpr
      (formed_textItem (Content.isText_raw hword e) _))
  | @choice offset branches last h hne htests _ _ ih ihlast =>
    rw [readNode]
    refine (lands_readBranches htests ih).bind fun bodies hfound => ?_
    obtain ⟨hlength, hbodies⟩ := hfound
    -- a condition was read for every branch, so there is a first one
    have hbodies_ne : bodies ≠ [] := by
      rintro rfl
      exact hne (List.length_eq_zero_iff.mp hlength.symm)
    cases last with
    | none =>
      refine .ok (List.forall_mem_singleton.mpr ?_)
      refine formed_control (by rw [Node.walk]) rfl ?_ ?_
      · simp only [Node.Fits, List.append_nil]
        exact ⟨hbodies_ne, fun b hb => (hbodies b (List.dropLast_subset _ hb)).1⟩
      · exact List.forall_mem_append.mpr ⟨fun b hb => (hbodies b hb).2, List.forall_mem_nil _⟩
    | some body =>
      refine (lands_readNodes (ihlast body rfl)).bind fun inside hinside => ?_
      refine .ok (List.forall_mem_singleton.mpr ?_)
      refine formed_control (by rw [Node.walk]) rfl ?_ ?_
      · simp only [Node.Fits, List.dropLast_concat]
        exact ⟨List.append_ne_nil_of_left_ne_nil hbodies_ne _, fun b hb => (hbodies b hb).1⟩
      · exact List.forall_mem_append.mpr ⟨fun b hb => (hbodies b hb).2,
          List.forall_mem_singleton.mpr (formed_blockNodes hinside)⟩
  | @each offset names items body h hitems _ ih =>
    rw [readNode]
    refine (lands_readExpr hitems).bind fun e _ => ?_
    refine (lands_readNodes ih).bind fun inside hinside => ?_
    refine .ok (List.forall_mem_singleton.mpr ?_)
    refine formed_holder (by rw [Node.walk]) rfl ?_ (formed_blockNodes hinside)
    intro hnil
    exact loopNames_ne_nil _ (List.map_eq_nil_iff.mp hnil)
  | cases h hsubject hpatterns _ ih =>
    rw [readNode]
    refine (lands_readExpr hsubject).bind fun e _ => ?_
    refine (lands_readArms hpatterns ih).bind fun bodies hbodies => ?_
    exact .ok (List.forall_mem_singleton.mpr
      (formed_control (by rw [Node.walk]) rfl trivial hbodies))
  | element h hname hshort hattributes _ hclosing ih =>
    rw [readNode]
    refine (lands_readAttributes hshort hattributes).bind fun given hgiven => ?_
    refine (lands_readNodes ih).bind fun inside hinside => ?_
    refine (lands_checkClosing hclosing).bind fun _ _ => ?_
    refine (lands_settleClasses hgiven).bind fun settled hsettled => ?_
    refine (lands_makeElement _ hname hsettled (formed_childNodes hinside)).bind fun n hn => ?_
    exact .ok (List.forall_mem_singleton.mpr hn)
  | splice h hbody =>
    rw [readNode]
    exact (lands_readExpr hbody).bind fun e _ => .ok (List.forall_mem_singleton.mpr
      (formed_textItem (Content.isText_escaped _ e) _))
  | quoted h =>
    rw [readNode]
    exact .ok (List.forall_mem_singleton.mpr (formed_textItem (Content.isText_literal _ _) _))
  | plain h =>
    rw [readNode]
    exact .ok (List.forall_mem_singleton.mpr (formed_plain _ _))
  | number h =>
    rw [readNode]
    exact .ok (List.forall_mem_singleton.mpr (formed_textItem (Content.isText_literal _ _) _))

/-- **A source is read as a tree that is formed or refused with an error that is about it**, in both
dialects. -/
theorem lands_readChars (dialect : Dialect) (source : List Char) :
    Lands source (readChars dialect source) (Stencil.Formed (rawWord <:+: source)) := by
  refine (lands_recognize dialect source).bind fun surface hsurface => ?_
  refine (lands_readNodes fun s hs => lands_of_sits (hsurface s hs)).bind fun items hitems => ?_
  exact .ok (formed_childNodes hitems)

end Stencil.Source
