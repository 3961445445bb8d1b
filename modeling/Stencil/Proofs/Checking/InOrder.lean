import Stencil.Proofs.Checking.Stamped

/-!
# Violations in the order of the source

The violations of a tree that was read are found where the checker looks, and it looks at the
elements in document order, in an element at its name, at its content and then at its attributes one
after the other. Places never go back on this way, with one exception: classes are joined where the
first of them stands, so a class that is refused may be reported before an attribute that stands in
front of it in the source.

**Theorem (`violations_inOrder`).** The violations of a tree that was read are in the order of their
places if and only if no element has such a class. In the dialect of tags they always are.
-/

namespace Stencil

open Schema Source

/-- The places of the violations never decrease. -/
def Schema.Violation.AreInOrder (violations : List Violation) : Prop :=
  violations.Pairwise fun v w => Location.InOrder v.place w.place

/-- No class that is refused stands behind a fault in one of the attributes that follow the classes
of the element. -/
def Node.ClassesInOrder (r : Registry) : Node → Prop
  | .element name attributes _ _ _ => ∀ entry, r.lookup name = some entry →
    attributes.Pairwise fun a b => ∀ parts, a.value = .joined parts →
      ∀ e raw, .dynamic e raw ∈ parts → isAmbiguous e = true →
        ∀ w ∈ r.attributeViolations entry name b, Location.InOrder e.place w.place
  | _ => True

/-! ## One attribute -/

namespace Schema.Registry

variable (r : Registry) {entry : Entry} {element : String} {a : Attribute}

theorem place_of_flagged (h : ∀ x ∈ a.places, x.isSome) {e : Expr} (he : e ∈ a.flagged) :
    (e.place <|> a.place) = e.place := by
  have hsome : e.place.isSome := h e.place (List.mem_cons_of_mem _ (List.mem_map_of_mem he))
  obtain ⟨l, hl⟩ := Option.isSome_iff_exists.mp hsome
  rw [hl]
  rfl

theorem map_place_attributeViolations (h : ∀ x ∈ a.places, x.isSome) :
    List.Sublist ((r.attributeViolations entry element a).map Violation.place) a.places := by
  have hflagged : (a.flagged.map fun e =>
      (Violation.ambiguousQuoting a.name (e.place <|> a.place)).place) =
        a.flagged.map Expr.place := by
    refine List.map_congr_left fun e he => ?_
    exact place_of_flagged h he
  unfold attributeViolations
  rw [List.map_append, List.map_map]
  by_cases hallows : r.allows entry a.name = true
  · rw [if_pos hallows, List.map_nil, List.nil_append]
    exact List.Sublist.cons _ (hflagged ▸ List.Sublist.refl _)
  · rw [if_neg hallows]
    exact List.Sublist.cons_cons _ (hflagged ▸ List.Sublist.refl _)

/-- A violation of an attribute is at its place, or it is about an expression. -/
theorem attributeViolations_cases (h : ∀ x ∈ a.places, x.isSome) {v : Violation}
    (hv : v ∈ r.attributeViolations entry element a) :
    v.place = a.place ∨ ∃ e, a.value.Shows e ∧ isAmbiguous e = true ∧ v.place = e.place := by
  unfold attributeViolations at hv
  rcases List.mem_append.mp hv with hv | hv
  · by_cases hallows : r.allows entry a.name = true
    · rw [if_pos hallows] at hv
      cases hv
    · rw [if_neg hallows, List.mem_singleton] at hv
      exact .inl (hv ▸ rfl)
  · obtain ⟨e, he, rfl⟩ := List.mem_map.mp hv
    obtain ⟨hshown, hambiguous⟩ := List.mem_filter.mp he
    exact .inr ⟨e, (mem_inspected _ e).mp hshown, hambiguous, place_of_flagged h he⟩

theorem place_mem_of_attributeViolations (h : ∀ x ∈ a.places, x.isSome) {v : Violation}
    (hv : v ∈ r.attributeViolations entry element a) : v.place ∈ a.places :=
  (r.map_place_attributeViolations h).subset (List.mem_map_of_mem hv)

/-! ## The attributes of an element -/

theorem ambiguous_mem (entry : Entry) (element : String) {parts : List Content}
    (hvalue : a.value = .joined parts) {e : Expr} {raw : Bool}
    (he : .dynamic e raw ∈ parts) (hambiguous : isAmbiguous e = true) :
    e ∈ a.flagged ∧
      .ambiguousQuoting a.name (e.place <|> a.place) ∈ r.attributeViolations entry element a := by
  have hflagged : e ∈ a.flagged := by
    refine List.mem_filter.mpr ⟨?_, hambiguous⟩
    rw [mem_inspected, hvalue]
    exact .part he
  exact ⟨hflagged, List.mem_append_right _ (List.mem_map.mpr ⟨e, hflagged, rfl⟩)⟩

/-- If the attributes are in order, only joined classes can spoil the order of their violations. -/
theorem attributes_inOrder (entry : Entry) (element : String) {attributes : List Attribute}
    (hplaces : PlacesInOrder attributes)
    (hsome : ∀ a ∈ attributes, ∀ x ∈ a.places, x.isSome) :
    Violation.AreInOrder (attributes.flatMap (r.attributeViolations entry element)) ↔
      attributes.Pairwise fun a b => ∀ parts, a.value = .joined parts →
        ∀ e raw, .dynamic e raw ∈ parts → isAmbiguous e = true →
          ∀ w ∈ r.attributeViolations entry element b, Location.InOrder e.place w.place := by
  unfold Violation.AreInOrder
  rw [List.pairwise_flatMap]
  constructor
  · rintro ⟨-, hacross⟩
    refine hacross.imp_of_mem fun {a b} ha _ hab parts hvalue e raw he hambiguous w hw => ?_
    obtain ⟨hflagged, hmem⟩ := r.ambiguous_mem entry element hvalue he hambiguous
    have horder := hab _ hmem w hw
    rwa [Violation.place, place_of_flagged (hsome a ha) hflagged] at horder
  · intro hclasses
    constructor
    · intro a ha
      exact List.pairwise_map.mp
        ((hplaces.each a ha).sublist (r.map_place_attributeViolations (hsome a ha)))
    · refine (hplaces.across.and hclasses).imp_of_mem fun {a b} ha hb hab v hv w hw => ?_
      have hwb := r.place_mem_of_attributeViolations (hsome b hb) hw
      have hva := r.place_mem_of_attributeViolations (hsome a ha) hv
      -- a value that is not joined has one place, so only joined classes can be out of order
      by_cases hsingle : a.IsSingle
      · exact hab.1 _ hva _ hwb (.inr hsingle)
      · rcases r.attributeViolations_cases (hsome a ha) hv with hplace | ⟨e, he, hambiguous, hplace⟩
        · exact hab.1 _ hva _ hwb (.inl hplace)
        · obtain ⟨parts, hvalue⟩ : ∃ parts, a.value = .joined parts := by
            simpa [Attribute.IsSingle] using hsingle
          rw [hvalue] at he
          rw [hplace]
          cases he with
          | part hpart => exact hab.2 parts hvalue e _ hpart hambiguous w hw

end Schema.Registry

/-! ## One element -/

variable {source : List Char}

theorem inOrder_spotPlaces {spots : List Spot}
    (h : spots.Pairwise fun s t => s.offset ≤ t.offset) :
    (spotPlaces source spots).Pairwise Location.InOrder :=
  List.pairwise_map.mpr (h.imp fun hle => Location.inOrder_locate hle)

theorem isSome_of_mem_spotPlaces {spots : List Spot} {x : Option Location}
    (h : x ∈ spotPlaces source spots) : x.isSome := by
  obtain ⟨s, -, rfl⟩ := List.mem_map.mp h
  rfl

/-- The attributes that an element ends up with are in order, if what it was read from is. -/
theorem Node.Stamped.cases {n : Node} {own : List Spot} (h : n.Stamped source own)
    (hordered : own.Pairwise fun s t => s.offset ≤ t.offset) :
    ∃ name attributes children void offset spots,
      n = .element name attributes children void (locate source offset) ∧
      own = ⟨offset, false⟩ :: spots ∧ PlacesInOrder attributes ∧
      attributes.flatMap Attribute.places ⊆ spotPlaces source spots ∧
      ((∃ s ∈ spots, s.short = true) ∨ ∀ a ∈ attributes, a.IsSingle) := by
  cases h with
  | @element name given attributes children void offset spots hplaces hsingle hsettled =>
    have hspots : (spotPlaces source spots).Pairwise Location.InOrder :=
      inOrder_spotPlaces (List.pairwise_cons.mp hordered).2
    have hgiven := hspots.sublist hplaces
    rcases hsettled with rfl | ⟨hshort, hmerged⟩
    · exact ⟨name, attributes, children, void, offset, spots, rfl, rfl,
        placesInOrder_of_pairwise hgiven, hplaces.subset, .inr hsingle⟩
    · obtain ⟨hkept, hsubset⟩ := placesInOrder_mergeClasses hgiven hmerged
      exact ⟨name, attributes, children, void, offset, spots, rfl, rfl, hkept,
        List.Subset.trans hsubset hplaces.subset, .inl hshort⟩

namespace Schema.Registry

variable (r : Registry)

/-- The violations of an element are at its spots, in order except for joined classes. -/
theorem inOrder_of_stamped {n : Node} {own : List Spot} (h : n.Stamped source own)
    (hordered : own.Pairwise fun s t => s.offset ≤ t.offset) :
    (∀ v ∈ r.nodeViolations n, v.place ∈ spotPlaces source own) ∧
      (Violation.AreInOrder (r.nodeViolations n) ↔ n.ClassesInOrder r) := by
  obtain ⟨name, attributes, children, void, offset, spots, rfl, rfl, hkept, hsubset, -⟩ :=
    h.cases hordered
  have hsome : ∀ a ∈ attributes, ∀ x ∈ a.places, x.isSome := fun a ha x hx =>
    isSome_of_mem_spotPlaces (hsubset (List.mem_flatMap.mpr ⟨a, ha, hx⟩))
  rw [nodeViolations, Node.ClassesInOrder]
  cases hentry : r.lookup name with
  | none =>
    constructor
    · intro v hv
      rw [List.mem_singleton.mp hv]
      exact List.mem_cons_self
    · simp [Violation.AreInOrder]
  | some entry =>
    dsimp only
    have hmem : ∀ v ∈ attributes.flatMap (r.attributeViolations entry name),
        v.place ∈ spotPlaces source spots := by
      intro v hv
      obtain ⟨a, ha, hv⟩ := List.mem_flatMap.mp hv
      have hplace := r.place_mem_of_attributeViolations (hsome a ha) hv
      exact hsubset (List.mem_flatMap.mpr ⟨a, ha, hplace⟩)
    have hfirst : ∀ x ∈ spotPlaces source spots, Location.InOrder (locate source offset) x :=
      (List.pairwise_cons.mp (inOrder_spotPlaces hordered)).1
    have hattributes := r.attributes_inOrder entry name hkept hsome
    -- the fault of a void element with children is at the element, which is in front of its
    -- attributes
    by_cases hvoid : (entry.isVoid && !children.isEmpty) = true
    · rw [if_pos hvoid, List.singleton_append]
      constructor
      · intro v hv
        rcases List.mem_cons.mp hv with rfl | hv
        · exact List.mem_cons_self
        · exact List.mem_cons_of_mem _ (hmem v hv)
      · rw [Violation.AreInOrder, List.pairwise_cons, ← Violation.AreInOrder, hattributes]
        simp only [Option.some.injEq, forall_eq']
        exact and_iff_right fun v hv => hfirst _ (hmem v hv)
    · rw [if_neg hvoid, List.nil_append, hattributes]
      simp only [Option.some.injEq, forall_eq']
      exact ⟨fun v hv => List.mem_cons_of_mem _ (hmem v hv), trivial⟩

/-! ## All elements -/

theorem inOrder_of_forall₂ {nodes : List Node} {own : List (List Spot)}
    (h : List.Forall₂ (Node.Stamped source) nodes own)
    (hordered : own.flatten.Pairwise fun s t => s.offset ≤ t.offset) :
    (∀ v ∈ nodes.flatMap r.nodeViolations, v.place ∈ spotPlaces source own.flatten) ∧
      (Violation.AreInOrder (nodes.flatMap r.nodeViolations) ↔
        ∀ n ∈ nodes, n.ClassesInOrder r) := by
  induction h with
  | nil => simp [Violation.AreInOrder]
  | @cons n spots nodes rest hn _ ih =>
    rw [List.flatten_cons] at hordered
    obtain ⟨hspots, hrest, hcross⟩ := List.pairwise_append.mp hordered
    obtain ⟨hmem, hone⟩ := r.inOrder_of_stamped hn hspots
    obtain ⟨hothers, hall⟩ := ih hrest
    rw [List.flatMap_cons, List.flatten_cons, spotPlaces, List.map_append]
    constructor
    · intro v hv
      rcases List.mem_append.mp hv with hv | hv
      · exact List.mem_append_left _ (hmem v hv)
      · exact List.mem_append_right _ (hothers v hv)
    · rw [Violation.AreInOrder, List.pairwise_append, ← Violation.AreInOrder,
        ← Violation.AreInOrder, hone, hall, List.forall_mem_cons]
      have hbetween : ∀ v ∈ r.nodeViolations n, ∀ w ∈ nodes.flatMap r.nodeViolations,
          Location.InOrder v.place w.place := by
        intro v hv w hw
        obtain ⟨s, hs, hplace⟩ := List.mem_map.mp (hmem v hv)
        obtain ⟨t, ht, hplace'⟩ := List.mem_map.mp (hothers w hw)
        rw [← hplace, ← hplace']
        exact Location.inOrder_locate (hcross s hs t ht)
      exact ⟨fun h => ⟨h.1, h.2.1⟩, fun h => ⟨h.1, h.2, hbetween⟩⟩

theorem violations_elements (nodes : List Node) :
    r.violations nodes = (elements nodes).flatMap r.nodeViolations := by
  unfold violations elements
  induction walk nodes with
  | nil => rfl
  | cons n rest ih =>
    rw [List.flatMap_cons, List.filter_cons, ih]
    by_cases he : n.element?.isSome
    · rw [if_pos he, List.flatMap_cons]
    · rw [if_neg he, nodeViolations_of_no_element r (Option.not_isSome_iff_eq_none.mp he),
        List.nil_append]

theorem classesInOrder_elements (nodes : List Node) :
    (∀ n ∈ elements nodes, n.ClassesInOrder r) ↔ ∀ n ∈ walk nodes, n.ClassesInOrder r := by
  constructor
  · intro h n hn
    by_cases he : n.element?.isSome
    · exact h n (List.mem_filter.mpr ⟨hn, he⟩)
    · cases n with
      | element => exact absurd rfl he
      | _ => trivial
  · exact fun h n hn => h n (List.mem_filter.mp hn).1

end Schema.Registry

/-- In the dialect of tags no classes are joined. -/
theorem classesInOrder_of_single (r : Registry) {n : Node} {own : List Spot}
    (h : n.Stamped source own) (hordered : own.Pairwise fun s t => s.offset ≤ t.offset)
    (hshort : ∀ s ∈ own, s.short = false) : n.ClassesInOrder r := by
  obtain ⟨name, attributes, children, void, offset, spots, rfl, rfl, -, -, hsingle⟩ :=
    h.cases hordered
  intro entry _
  rcases hsingle with ⟨s, hs, htrue⟩ | hsingle
  · rw [hshort s (List.mem_cons_of_mem _ hs)] at htrue
    cases htrue
  · refine List.pairwise_of_forall_mem_list fun a ha b _ parts hvalue => ?_
    exact absurd hvalue (hsingle a ha parts)

theorem classesInOrder_of_forall₂ (r : Registry) {nodes : List Node} {own : List (List Spot)}
    (h : List.Forall₂ (Node.Stamped source) nodes own)
    (hordered : own.flatten.Pairwise fun s t => s.offset ≤ t.offset)
    (hshort : ∀ s ∈ own.flatten, s.short = false) : ∀ n ∈ nodes, n.ClassesInOrder r := by
  induction h with
  | nil => exact List.forall_mem_nil _
  | cons hn _ ih =>
    rw [List.flatten_cons] at hordered hshort
    obtain ⟨hspots, hrest, -⟩ := List.pairwise_append.mp hordered
    obtain ⟨hone, hothers⟩ := List.forall_mem_append.mp hshort
    exact List.forall_mem_cons.mpr
      ⟨classesInOrder_of_single r hn hspots hone, ih hrest hothers⟩

namespace Schema.Registry

theorem inOrder_self (place : Option Location) : Location.InOrder place place := by
  intro l hl m hm hbefore
  rw [Option.mem_def] at hl hm
  obtain rfl : l = m := Option.some.inj (hl.symm.trans hm)
  rcases hbefore with hlt | ⟨-, hlt⟩
  · exact Nat.lt_irrefl _ hlt
  · exact Nat.lt_irrefl _ hlt

theorem head_inOrder {violations : List Violation} (h : Violation.AreInOrder violations) :
    ∀ v ∈ violations, Location.InOrder (violations.head?.bind Violation.place) v.place := by
  intro v hv
  cases violations with
  | nil => cases hv
  | cons first rest =>
    rcases List.mem_cons.mp hv with rfl | hv
    · exact inOrder_self v.place
    · exact (List.pairwise_cons.mp h).1 v hv

/-- **Violations are reported in the order of the source**, except for joined classes. All
violations of a tree that was read are at places of the source. They are in the order of their
places, whatever their kinds and however deep the elements stand, if and only if no class that is
refused stands behind a fault in an attribute that follows the joined classes; in the dialect of
tags this is always so. Then the first violation, whose place is that of the error, is the one that
stands first. -/
theorem violations_inOrder (r : Registry) {dialect : Dialect} {source : String}
    {nodes : List Node} {violations : List Violation} (hread : Source.read dialect source = .ok nodes)
    (hcheck : r.check nodes = .error violations) :
    (∀ v ∈ violations, ∃ offset ≤ source.toList.length,
        v.place = some (Location.ofOffset source.toList offset)) ∧
      (Violation.AreInOrder violations ↔ ∀ n ∈ walk nodes, n.ClassesInOrder r) ∧
      (dialect = .rsx → Violation.AreInOrder violations) ∧
      (Violation.AreInOrder violations →
        ∀ v ∈ violations, Location.InOrder (violations.head?.bind Violation.place) v.place) := by
  obtain ⟨-, rfl⟩ := r.check_eq_error.mp hcheck
  obtain ⟨spots, hascends, own, hstamped, hsub⟩ := stamped_readChars hread
  have hown := hascends.sublist hsub
  obtain ⟨hplaces, horder⟩ := r.inOrder_of_forall₂ hstamped hown.ordered
  rw [← violations_elements] at hplaces horder
  rw [r.classesInOrder_elements] at horder
  refine ⟨?_, horder, ?_, head_inOrder⟩
  · intro v hv
    obtain ⟨s, hmem, hs⟩ := List.mem_map.mp (hplaces v hv)
    exact ⟨s.offset, hown.offset_le s hmem, hs.symm⟩
  · intro hrsx
    have hshort : ∀ s ∈ own.flatten, s.short = false := by
      intro s hs
      have hmaud : s.short = true → dialect = .maud := hown.short_of s hs
      simpa [hrsx] using hmaud
    rw [horder, ← r.classesInOrder_elements]
    exact classesInOrder_of_forall₂ r hstamped hown.ordered hshort

/-- What is known of a page whose violations are at certain places. -/
theorem exists_violations {dialect : Dialect} {source : String} {first : Option Location}
    {rest : List (Option Location)}
    (h : ((Source.read dialect source).toOption.map fun nodes =>
      (builtin.violations nodes).map Violation.place) = some (first :: rest)) :
    ∃ nodes violations, Source.read dialect source = .ok nodes ∧
      builtin.check nodes = .error violations ∧
      violations.map Violation.place = first :: rest := by
  rcases hread : Source.read dialect source with e | nodes
  · rw [hread] at h
    cases h
  · rw [hread] at h
    have hplaces : (builtin.violations nodes).map Violation.place = first :: rest :=
      Option.some.inj h
    have hne : builtin.violations nodes ≠ [] := by
      intro hnil
      rw [hnil] at hplaces
      cases hplaces
    exact ⟨nodes, _, rfl, check_of_ne_nil builtin hne, hplaces⟩

/-- A page of tags with violations of all kinds. -/
theorem violations_inOrder_tags :
    ∃ nodes violations,
      Source.read .rsx "<a src=\"x\"><br>y</br><p title=\x7b\"it's\"\x7d/><blink/></a>" = .ok nodes ∧
      builtin.check nodes = .error violations ∧ Violation.AreInOrder violations ∧
      violations.map Violation.place =
        [some ⟨1, 4⟩, some ⟨1, 12⟩, some ⟨1, 32⟩, some ⟨1, 41⟩] := by
  have hpage : ((Source.read .rsx
      "<a src=\"x\"><br>y</br><p title=\x7b\"it's\"\x7d/><blink/></a>").toOption.map fun nodes =>
        (builtin.violations nodes).map Violation.place) =
          some [some ⟨1, 4⟩, some ⟨1, 12⟩, some ⟨1, 32⟩, some ⟨1, 41⟩] := by
    decide +kernel
  obtain ⟨nodes, violations, hread, hcheck, hplaces⟩ := exists_violations hpage
  obtain ⟨-, -, hrsx, -⟩ := violations_inOrder builtin hread hcheck
  exact ⟨nodes, violations, hread, hcheck, hrsx rfl, hplaces⟩

/-- The class in quotes is joined to the one in front of the attributes, so it is reported before
the attribute that stands in front of it. -/
theorem violations_notInOrder :
    ¬ ∀ nodes violations, Source.read .maud "p.a foo=\"1\" class=(\"x'y\");" = .ok nodes →
      builtin.check nodes = .error violations → Violation.AreInOrder violations := by
  intro hall
  have hpage : ((Source.read .maud "p.a foo=\"1\" class=(\"x'y\");").toOption.map fun nodes =>
      (builtin.violations nodes).map Violation.place) = some [some ⟨1, 20⟩, some ⟨1, 5⟩] := by
    decide +kernel
  obtain ⟨nodes, violations, hread, hcheck, hplaces⟩ := exists_violations hpage
  have horder := List.pairwise_map.mpr (hall nodes violations hread hcheck)
  rw [hplaces] at horder
  have hpair := (List.pairwise_cons.mp horder).1 _ List.mem_cons_self
  exact hpair ⟨1, 20⟩ rfl ⟨1, 5⟩ rfl (by decide)

end Schema.Registry

end Stencil
