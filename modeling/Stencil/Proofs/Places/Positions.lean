import Stencil.Proofs.Places.Locations
import Stencil.Proofs.Places.Made
import Stencil.Proofs.Places.Spots

/-!
# Positions point at what they describe

**Theorem (`positions_of_read`).** Whatever source is read, in either dialect, the nodes of its tree
stand at locations that strictly increase in document order, and every expression in the tree is
found in the source where it says that it stands, behind blanks. Only the constant that an attribute
without a value gets is not: it stands where the name of the attribute is found.
-/

namespace Stencil

open Source

/-! ## The expressions of a tree -/

mutual

/-- The expressions in a value. -/
def Content.exprs : Content → List Expr
  | .dynamic e _ => [e]
  | .toggle e => [e]
  | .joined parts => exprsOf parts
  | _ => []

/-- The expressions in the parts of a value. -/
def exprsOf : List Content → List Expr
  | [] => []
  | part :: rest => part.exprs ++ exprsOf rest

end

namespace Node

/-- The attributes of an element or the arguments of a component. -/
def attributes : Node → List Attribute
  | .element _ attributes _ _ _ => attributes
  | .component _ arguments _ _ => arguments
  | _ => []

/-- The expressions of a node itself, apart from those in its attributes: its text, conditions,
patterns, what it goes by and what it refers to. -/
def exprs : Node → List Expr
  | .text content _ => content.exprs
  | .component reference _ _ _ => [reference]
  | .choice branches _ => branches.filterMap Prod.fst
  | .each _ items _ _ => [items]
  | .cases subject arms _ => subject :: arms.filterMap Prod.fst
  | _ => []

end Node

/-- The expression is found in the source where it says that it stands, behind blanks. -/
def Expr.StandsIn (source : List Char) (e : Expr) : Prop :=
  ∃ l, e.place = some l ∧ e.source.toList <+: Text.trimStart (l.rest source)

/-- The expression is the constant of an attribute without a value, and stands where the name of the
attribute is found. -/
structure Attribute.IsBare (source : List Char) (a : Attribute) (e : Expr) : Prop where
  value_eq : a.value = .toggle e
  source_eq : e.source = "True"
  place_eq : e.place = a.place
  name : ∃ l, a.place = some l ∧ a.name.toList <+: l.rest source

/-- The expressions of an attribute are found where they say that they stand, or it has no value. -/
def Attribute.StandsIn (source : List Char) (a : Attribute) : Prop :=
  ∀ e ∈ a.value.exprs, e.StandsIn source ∨ a.IsBare source e

theorem mem_exprsOf {e : Expr} {parts : List Content} :
    e ∈ exprsOf parts ↔ ∃ part ∈ parts, e ∈ part.exprs := by
  induction parts with
  | nil => simp [exprsOf]
  | cons part rest ih => simp [exprsOf, ih]

/-! ## Expressions that are read -/

namespace Source

variable {source : List Char}

theorem trim_prefix {chars text : List Char} (h : chars <+: text) :
    Text.trim chars <+: Text.trimStart text := by
  have htrim : Text.trim chars <+: Text.trimStart chars := by
    rw [Text.trim, Text.trimEnd, ← List.reverse_suffix, List.reverse_reverse]
    exact List.dropWhile_suffix _
  obtain ⟨rest, rfl⟩ := h
  rw [Text.trimStart, List.dropWhile_append]
  split
  · next hblank =>
    rw [Text.trimStart, List.isEmpty_iff.mp hblank, List.prefix_nil] at htrim
    rw [htrim]
    exact List.nil_prefix
  · exact htrim.trans (List.prefix_append _ _)

theorem standsIn_readExpr {l : Lexeme} (hl : l.Sits source) {e : Expr}
    (h : readExpr source l = .ok e) : e.StandsIn source := by
  obtain ⟨hsource, -, hplace⟩ := Expr.ofSource_eq_ok h
  refine ⟨_, hplace, ?_⟩
  rw [Location.rest_ofOffset, hsource, String.toList_ofList, Lexeme.text, String.toList_ofList]
  exact trim_prefix hl.chars_prefix

theorem standsIn_readAttribute {s : SurfaceAttribute} (hs : s.Sits source) {a : Attribute}
    (h : readAttribute source s = .ok a) : a.StandsIn source := by
  obtain ⟨value, hvalue, h⟩ := bind_eq_ok.mp h
  rw [← pure_eq_ok.mp h]
  intro e he
  cases hgiven : s.value with
  | none =>
    rw [hgiven] at hvalue
    obtain ⟨constant, hconstant, hvalue⟩ := bind_eq_ok.mp hvalue
    rw [← pure_eq_ok.mp hvalue] at he ⊢
    obtain rfl := List.mem_singleton.mp he
    obtain ⟨hsource, -, hplace⟩ := Expr.ofSource_eq_ok hconstant
    refine .inr ⟨rfl, ?_, hplace, _, rfl, ?_⟩
    · rw [hsource]
      rfl
    · rw [Location.rest_ofOffset, Lexeme.text, String.toList_ofList]
      exact hs.name.chars_prefix
  | some given =>
    rw [hgiven] at hvalue
    have hsits := hs.value given hgiven
    cases given with
    | quoted literal =>
      cases hvalue
      cases he
    | single literal => cases hvalue
    | expr body | toggle body =>
      obtain ⟨read, hread, hvalue⟩ := bind_eq_ok.mp hvalue
      rw [← pure_eq_ok.mp hvalue] at he
      obtain rfl := List.mem_singleton.mp he
      exact .inl (standsIn_readExpr hsits hread)

theorem standsIn_readShorthand {s : Shorthand} (hs : s.Sits source) {a : Attribute}
    (h : readShorthand source s = .ok a) : a.StandsIn source := by
  obtain ⟨value, hvalue, h⟩ := bind_eq_ok.mp h
  rw [← pure_eq_ok.mp h]
  intro e he
  have hsits := hs.value
  cases hgiven : s.value with
  | name text | quoted literal =>
    rw [hgiven] at hvalue
    cases hvalue
    cases he
  | expr body =>
    rw [hgiven] at hvalue hsits
    obtain ⟨read, hread, hvalue⟩ := bind_eq_ok.mp hvalue
    rw [← pure_eq_ok.mp hvalue] at he
    obtain rfl := List.mem_singleton.mp he
    exact .inl (standsIn_readExpr hsits hread)

/-! ## Classes that are joined -/

theorem mem_joinClasses {values : List Content} {e : Expr} (h : e ∈ (joinClasses values).exprs) :
    ∃ v ∈ values, e ∈ v.exprs := by
  unfold joinClasses at h
  split at h
  · cases h
  · exact mem_exprsOf.mp h

theorem standsIn_settleClasses {given : List Attribute × Bool} {settled : List Attribute}
    (hgiven : ∀ a ∈ given.1, a.StandsIn source) (h : settleClasses given = .ok settled) :
    ∀ a ∈ settled, a.StandsIn source := by
  obtain ⟨given, _ | _⟩ := given
  · cases h
    exact hgiven
  intro a ha
  rcases mem_mergeClasses h ha with ha | ⟨-, values, hjoined, hvalues⟩
  · exact hgiven a ha
  intro e he
  rw [hjoined] at he
  obtain ⟨v, hv, he⟩ := mem_joinClasses he
  obtain ⟨b, hb, hclass⟩ := hvalues v hv
  rw [← (value_of_classValue hclass).1] at he
  refine .inl ((hgiven b hb e he).resolve_right fun hbare => ?_)
  -- a toggle is no class value
  rw [classValue?, hbare.value_eq] at hclass
  simp at hclass

theorem standsIn_readAttributes {shorthands : List Shorthand} {attributes : List SurfaceAttribute}
    (hshort : ∀ s ∈ shorthands, s.Sits source) (hattributes : ∀ a ∈ attributes, a.Sits source)
    {given : List Attribute × Bool} (h : readAttributes source shorthands attributes = .ok given) :
    ∀ a ∈ given.1, a.StandsIn source := by
  obtain ⟨front, hfront, h⟩ := bind_eq_ok.mp h
  obtain ⟨back, hback, h⟩ := bind_eq_ok.mp h
  rw [← pure_eq_ok.mp h]
  refine List.forall_mem_append.mpr ⟨fun a ha => ?_, fun a ha => ?_⟩
  · obtain ⟨s, hs, hread⟩ := mem_mapM hfront ha
    exact standsIn_readShorthand (hshort s hs) hread
  · obtain ⟨s, hs, hread⟩ := mem_mapM hback ha
    exact standsIn_readAttribute (hattributes s hs) hread

/-! ## Nodes -/

theorem Surface.sits_held (s : Surface) (h : s.Sits source) : ∀ t ∈ s.held, t.Sits source := by
  cases h with
  | group h => exact h
  | choice _ _ _ hbodies hlast => exact forall_mem_branches.mpr ⟨hbodies, hlast⟩
  | each _ _ hbody => exact hbody
  | cases _ _ _ hbodies => exact forall_mem_bodies.mpr hbodies
  | element _ _ _ _ hchildren _ => exact hchildren
  | _ => exact List.forall_mem_nil _

end Source

variable {source : List Char}

/-- The expressions of a node and of its attributes are found where they say that they stand. -/
structure Node.StandsIn (source : List Char) (n : Node) : Prop where
  exprs : ∀ e ∈ n.exprs, e.StandsIn source
  attributes : ∀ a ∈ n.attributes, a.StandsIn source

theorem Node.MadeFrom.standsIn {n : Node} {s : Surface} (h : n.MadeFrom source s)
    (hs : s.Sits source) : n.StandsIn source := by
  cases h with
  | doctype | quoted | plain | number => exact ⟨List.forall_mem_nil _, List.forall_mem_nil _⟩
  | raw offset h =>
    cases hs with
    | raw _ hbody =>
      exact ⟨List.forall_mem_singleton.mpr (standsIn_readExpr hbody h), List.forall_mem_nil _⟩
  | splice offset h =>
    cases hs with
    | splice _ hbody =>
      exact ⟨List.forall_mem_singleton.mpr (standsIn_readExpr hbody h), List.forall_mem_nil _⟩
  | choice offset last h =>
    cases hs with
    | choice _ _ htests =>
      refine ⟨fun e he => ?_, List.forall_mem_nil _⟩
      obtain ⟨b, hb, hguard⟩ := List.mem_filterMap.mp he
      obtain ⟨c, hc, hread⟩ := h b hb e hguard
      exact standsIn_readExpr (htests c hc) hread
  | each offset names body inner h =>
    cases hs with
    | each _ hitems =>
      exact ⟨List.forall_mem_singleton.mpr (standsIn_readExpr hitems h), List.forall_mem_nil _⟩
  | cases offset hsubject h =>
    cases hs with
    | cases _ hsits hpatterns =>
      refine ⟨List.forall_mem_cons.mpr ⟨standsIn_readExpr hsits hsubject, fun e he => ?_⟩,
        List.forall_mem_nil _⟩
      obtain ⟨b, hb, hguard⟩ := List.mem_filterMap.mp he
      obtain ⟨arm, harm, l, hl, hread⟩ := h b hb e hguard
      exact standsIn_readExpr (hpatterns arm harm l hl) hread
  | element children closing hgiven hsettled h =>
    cases hs with
    | element _ hname hshort hattributes =>
      have hstands := standsIn_settleClasses (standsIn_readAttributes hshort hattributes hgiven)
        hsettled
      rcases makeElement_eq_ok source h with ⟨reference, hreference, rfl⟩ | rfl
      · exact ⟨List.forall_mem_singleton.mpr (standsIn_readExpr hname hreference), hstands⟩
      · exact ⟨List.forall_mem_nil _, hstands⟩

/-! ## Positions -/

/-- A node stands where the surface node begins that it is made from. -/
theorem Node.MadeFrom.place_eq {n : Node} {s : Surface} (h : n.MadeFrom source s) :
    ∃ offset, n.place = locate source offset ∧ List.Sublist (startSpots offset) s.ownSpots := by
  cases h with
  | element children closing hgiven hsettled h =>
    rcases makeElement_eq_ok source h with ⟨_, -, rfl⟩ | rfl
    · exact ⟨_, rfl, List.sublist_append_left _ _⟩
    · exact ⟨_, rfl, List.sublist_append_left _ _⟩
  | _ => exact ⟨_, rfl, List.Sublist.refl _⟩

/-- Nodes that are made from surface nodes in order stand at offsets in order. -/
theorem exists_offsets {nodes : List Node} {surface : List Surface}
    (h : List.SublistForall₂ (Node.MadeFrom source) nodes surface) :
    ∃ offsets : List Nat, nodes.map Node.place = offsets.map (locate source) ∧
      List.Sublist (offsets.flatMap startSpots) (surface.flatMap Surface.ownSpots) := by
  induction h with
  | nil => exact ⟨[], rfl, List.nil_sublist _⟩
  | cons hn _ ih =>
    obtain ⟨offset, hplace, hstart⟩ := hn.place_eq
    obtain ⟨offsets, hplaces, hsub⟩ := ih
    refine ⟨offset :: offsets, ?_, ?_⟩
    · rw [List.map_cons, List.map_cons, hplace, hplaces]
    · rw [List.flatMap_cons, List.flatMap_cons]
      exact hstart.append hsub
  | cons_right _ ih =>
    obtain ⟨offsets, hplaces, hsub⟩ := ih
    refine ⟨offsets, hplaces, ?_⟩
    rw [List.flatMap_cons]
    exact List.sublist_append_of_sublist_right hsub

/-- Where one thing after another begins that takes a character at least, offsets increase. -/
theorem Source.Ascends.offsets_lt {short : Prop} {offsets : List Nat} {stop : Nat}
    (h : Ascends short (offsets.flatMap startSpots) stop) : offsets.Pairwise (· < ·) := by
  refine (List.pairwise_flatMap.mp h.ordered).2.imp fun {i j} hij => ?_
  exact hij ⟨i + 1, false⟩ (by simp [startSpots]) ⟨j, false⟩ (by simp [startSpots])

/-- **Positions point at what they describe.** The nodes of a tree that was read, in document order,
stand at locations that strictly increase; and the source has every expression of the tree where the
expression says that it stands, behind blanks, except for the constants of attributes without a
value, which stand where the names of the attributes are. -/
theorem positions_of_read {dialect : Dialect} {source : String} {nodes : List Node}
    (h : Source.read dialect source = .ok nodes) :
    (∃ locations : List Location, (walk nodes).map Node.place = locations.map some ∧
        locations.Pairwise Location.before) ∧
      ∀ n ∈ walk nodes, (∀ e ∈ n.exprs, e.StandsIn source.toList) ∧
        ∀ a ∈ n.attributes, ∀ e ∈ a.value.exprs,
          e.StandsIn source.toList ∨ a.IsBare source.toList e := by
  obtain ⟨surface, hsurface, hmade⟩ := made_readChars h
  constructor
  · obtain ⟨offsets, hplaces, hsub⟩ := exists_offsets hmade
    rw [← spotsOf_eq] at hsub
    -- spots ascend, and each node has two of them, one apart, so offsets of nodes are never equal
    have hlt := ((ascends_recognize hsurface).sublist hsub).offsets_lt
    refine ⟨offsets.map (Location.ofOffset source.toList), ?_, ?_⟩
    · rw [hplaces, List.map_map]
      rfl
    · exact List.pairwise_map.mpr (hlt.imp Location.before_of_lt)
  · intro n hn
    have hsits := (lands_recognize dialect source.toList).1 surface hsurface
    obtain ⟨s, hs, hmade⟩ := sublistForall₂_mem hmade hn
    have hstands := hmade.standsIn (Surface.forall_mem_walk Surface.sits_held hsits s hs)
    exact ⟨hstands.exprs, hstands.attributes⟩

/-- Blanks around an expression on the second line, and an attribute without a value after it. -/
def twoLines : String :=
  "<p>\n  <b title=\x7b t \x7d hidden>x</b></p>"

theorem positions_of_read_twoLines : ∃ nodes, Source.read .rsx twoLines = .ok nodes ∧
    (walk nodes).map Node.place = [⟨1, 1⟩, ⟨2, 3⟩, ⟨2, 25⟩].map some ∧
    ((walk nodes).flatMap Node.attributes).map Attribute.place = [⟨2, 6⟩, ⟨2, 18⟩].map some ∧
    (∃ locations : List Location, (walk nodes).map Node.place = locations.map some ∧
      locations.Pairwise Location.before) ∧
    ∀ n ∈ walk nodes, (∀ e ∈ n.exprs, e.StandsIn twoLines.toList) ∧
      ∀ a ∈ n.attributes, ∀ e ∈ a.value.exprs,
        e.StandsIn twoLines.toList ∨ a.IsBare twoLines.toList e := by
  have hpage : ((Source.read .rsx twoLines).toOption.map fun nodes =>
      ((walk nodes).map Node.place, ((walk nodes).flatMap Node.attributes).map Attribute.place)) =
        some ([⟨1, 1⟩, ⟨2, 3⟩, ⟨2, 25⟩].map some, [⟨2, 6⟩, ⟨2, 18⟩].map some) := by
    decide +kernel
  rcases hread : Source.read .rsx twoLines with e | nodes
  · rw [hread] at hpage
    cases hpage
  · rw [hread] at hpage
    obtain ⟨hnodes, hattributes⟩ := Prod.mk.inj (Option.some.inj hpage)
    exact ⟨nodes, rfl, hnodes, hattributes, positions_of_read hread⟩

end Stencil
