import Mathlib.Data.List.Flatten
import Stencil.Proofs.Results
import Stencil.Schema.Violation
import Stencil.Source.Read

/-!
# The order of places

Offsets that do not decrease are at locations that do not decrease. The places of an attribute are
where it stands and where the expressions begin that a check may refuse. If the attributes of an
element are given in order, so are the places of the attributes that it gets in the end, except
that the expressions of classes that were joined may stand behind other attributes.
-/

namespace Stencil

open Schema

/-! ## Locations -/

/-- The first place is not behind the second, as far as both are known. -/
def Location.InOrder (a b : Option Location) : Prop :=
  ∀ l ∈ a, ∀ m ∈ b, ¬ m.before l

namespace Location

variable {text : List Char} {i j : Nat}

theorem line_le (h : i ≤ j) : (ofOffset text i).line ≤ (ofOffset text j).line := by
  have hbefore : text.take i <+: text.take j := List.take_prefix_take_left h
  exact Nat.succ_le_succ (hbefore.sublist.count_le '\n')

theorem lineStart_eq (h : i ≤ j)
    (hline : (ofOffset text i).line = (ofOffset text j).line) :
    lineStart text i = lineStart text j := by
  obtain ⟨between, hbetween⟩ : text.take i <+: text.take j := List.take_prefix_take_left h
  have hnone : '\n' ∉ between := by
    simp only [ofOffset, ← hbetween, List.count_append] at hline
    exact List.count_eq_zero.mp (by omega)
  have hall : ∀ c ∈ between.reverse, (c != '\n') = true := by
    intro c hc
    rw [bne_iff_ne]
    rintro rfl
    exact hnone (List.mem_reverse.mp hc)
  unfold lineStart
  dsimp only
  rw [← hbetween, List.reverse_append, List.takeWhile_append_of_pos hall]
  simp only [List.length_append, List.length_reverse]
  omega

/-- A later offset is not at an earlier location. -/
theorem not_before_of_le (h : i ≤ j) : ¬ (ofOffset text j).before (ofOffset text i) := by
  have hle : (ofOffset text i).line ≤ (ofOffset text j).line := line_le h
  rintro (hlt | ⟨heq, hlt⟩)
  · exact absurd hlt (Nat.not_lt.mpr hle)
  · have hstart := lineStart_eq h heq.symm
    simp only [ofOffset, hstart] at hlt
    omega

theorem inOrder_locate (h : i ≤ j) :
    InOrder (Source.locate text i) (Source.locate text j) := by
  intro l hl m hm
  cases hl
  cases hm
  exact not_before_of_le h

end Location

/-! ## Places of attributes -/

/-- The expressions of a value that a check refuses. -/
def flaggedIn (value : Content) : List Expr :=
  (inspected value).filter isAmbiguous

namespace Attribute

/-- The expressions of an attribute that a check refuses. -/
def flagged (a : Attribute) : List Expr :=
  flaggedIn a.value

/-- Where an attribute stands, and where the expressions in it begin that a check refuses. -/
def places (a : Attribute) : List (Option Location) :=
  a.place :: a.flagged.map Expr.place

/-- The value is no list of classes. -/
def IsSingle (a : Attribute) : Prop :=
  ∀ parts, a.value ≠ .joined parts

end Attribute

/-- The places of attributes in their order. Only the expressions of joined classes may stand
behind the attributes that follow. -/
structure PlacesInOrder (attributes : List Attribute) : Prop where
  each : ∀ a ∈ attributes, a.places.Pairwise Location.InOrder
  across : attributes.Pairwise fun a b => ∀ x ∈ a.places, ∀ y ∈ b.places,
    x = a.place ∨ a.IsSingle → Location.InOrder x y

theorem placesInOrder_of_pairwise {given : List Attribute}
    (h : (given.flatMap Attribute.places).Pairwise Location.InOrder) : PlacesInOrder given := by
  obtain ⟨heach, hacross⟩ := List.pairwise_flatMap.mp h
  exact ⟨heach, hacross.imp fun hab x hx y hy _ => hab x hx y hy⟩

theorem PlacesInOrder.append {l k : List Attribute} (hl : PlacesInOrder l) (hk : PlacesInOrder k)
    (h : ∀ x ∈ l.flatMap Attribute.places, ∀ y ∈ k.flatMap Attribute.places,
      Location.InOrder x y) : PlacesInOrder (l ++ k) where
  each := List.forall_mem_append.mpr ⟨hl.each, hk.each⟩
  across := by
    refine List.pairwise_append.mpr ⟨hl.across, hk.across, ?_⟩
    intro a ha b hb x hx y hy _
    exact h x (List.mem_flatMap.mpr ⟨a, ha, hx⟩) y (List.mem_flatMap.mpr ⟨b, hb, hy⟩)

namespace Source

/-! ## Joined classes -/

/-- The attribute is no class value. -/
def isNoClass (a : Attribute) : Bool :=
  (classValue? a).isNone

theorem value_of_classValue {a : Attribute} {value : Content} (h : classValue? a = some value) :
    a.value = value ∧ ∀ parts, value ≠ .joined parts := by
  unfold classValue? at h
  split at h
  · split at h
    · next text hvalue =>
      cases h
      exact ⟨hvalue, fun parts hparts => by cases hparts⟩
    · next e raw hvalue =>
      cases h
      exact ⟨hvalue, fun parts hparts => by cases hparts⟩
    · cases h
  · cases h

theorem add_class {g : Gathered} {a : Attribute} {value : Content}
    (h : classValue? a = some value) :
    g.add a = .ok { g with first := some (g.first.getD a.place), classes := value :: g.classes } := by
  simp [Gathered.add, h]

/-- What is no class value is refused as a second id, or stands in front of all class values or behind
the first. -/
theorem add_of_none {g : Gathered} {a : Attribute} (hclass : classValue? a = none) :
    g.add a = if a.name == "id" && g.hasId then .error ⟨.duplicateId, a.place⟩
      else .ok { g with
        hasId := g.hasId || a.name == "id"
        front := if g.first.isNone then a :: g.front else g.front
        back := if g.first.isNone then g.back else a :: g.back } := by
  unfold Gathered.add
  rw [hclass]
  cases g.first <;> rfl

theorem add_other {g next : Gathered} {a : Attribute} (hclass : classValue? a = none)
    (h : g.add a = .ok next) :
    next.first = g.first ∧ next.classes = g.classes ∧
      (g.first = none → next.front = a :: g.front ∧ next.back = g.back) ∧
      (g.first ≠ none → next.front = g.front ∧ next.back = a :: g.back) := by
  rw [add_of_none hclass] at h
  split at h <;> cases h
  cases g.first <;> simp

/-- After the first class value all others are joined to it, and the rest stays in its order. -/
theorem foldlM_add_back {rest : List Attribute} {g result : Gathered} {place : Option Location}
    (hfirst : g.first = some place) (h : rest.foldlM Gathered.add g = .ok result) :
    result.first = some place ∧ result.front = g.front ∧
      result.classes = (rest.filterMap classValue?).reverse ++ g.classes ∧
      result.back = (rest.filter isNoClass).reverse ++ g.back := by
  induction rest generalizing g with
  | nil =>
    rw [List.foldlM_nil, pure_eq_ok] at h
    subst h
    simp [hfirst]
  | cons a rest ih =>
    rw [List.foldlM_cons] at h
    obtain ⟨next, hnext, h⟩ := bind_eq_ok.mp h
    cases hvalue : classValue? a with
    | some value =>
      rw [add_class hvalue] at hnext
      cases hnext
      obtain ⟨h₁, h₂, h₃, h₄⟩ := ih (by simp [hfirst]) h
      refine ⟨h₁, h₂, ?_, ?_⟩
      · simp [h₃, hvalue]
      · simp [h₄, isNoClass, hvalue]
    | none =>
      obtain ⟨hsame, hclasses, -, hback⟩ := add_other hvalue hnext
      obtain ⟨hfront, hback⟩ := hback (by simp [hfirst])
      obtain ⟨h₁, h₂, h₃, h₄⟩ := ih (hsame.trans hfirst) h
      refine ⟨h₁, h₂.trans hfront, ?_, ?_⟩
      · simp [h₃, hvalue, hclasses]
      · simp [h₄, isNoClass, hvalue, hback]

/-- Attributes without a class value are only gathered. -/
theorem foldlM_add_front {front : List Attribute} (hfront : ∀ a ∈ front, classValue? a = none)
    {g result : Gathered} (hfirst : g.first = none)
    (h : front.foldlM Gathered.add g = .ok result) :
    result.first = none ∧ result.front = front.reverse ++ g.front ∧
      result.classes = g.classes ∧ result.back = g.back := by
  induction front generalizing g with
  | nil =>
    rw [List.foldlM_nil, pure_eq_ok] at h
    subst h
    simp [hfirst]
  | cons a rest ih =>
    rw [List.foldlM_cons] at h
    obtain ⟨next, hnext, h⟩ := bind_eq_ok.mp h
    obtain ⟨ha, hrest⟩ := List.forall_mem_cons.mp hfront
    obtain ⟨hsame, hclasses, hfound, -⟩ := add_other ha hnext
    obtain ⟨hnext, hback⟩ := hfound hfirst
    obtain ⟨h₁, h₂, h₃, h₄⟩ := ih hrest (hsame.trans hfirst) h
    refine ⟨h₁, ?_, h₃.trans hclasses, h₄.trans hback⟩
    simp [h₂, hnext]

/-- All class values are joined where the first of them stands. -/
theorem attributes_of_class {front rest : List Attribute} {c : Attribute} {value : Content}
    (hfront : ∀ a ∈ front, classValue? a = none) (hvalue : classValue? c = some value)
    {result : Gathered} (h : (front ++ c :: rest).foldlM Gathered.add {} = .ok result) :
    result.attributes = front ++
      ⟨"class", joinClasses (value :: rest.filterMap classValue?), c.place⟩ ::
        rest.filter isNoClass := by
  rw [List.foldlM_append] at h
  obtain ⟨before, hbefore, h⟩ := bind_eq_ok.mp h
  rw [List.foldlM_cons, add_class hvalue] at h
  obtain ⟨h₁, h₂, h₃, h₄⟩ := foldlM_add_front hfront rfl hbefore
  obtain ⟨k₁, k₂, k₃, k₄⟩ := foldlM_add_back rfl h
  simp [Gathered.attributes, k₁, k₂, k₃, k₄, h₁, h₂, h₃, h₄]

/-- **What joining classes gives**: the same attributes if there is no class value; otherwise one
attribute where the first class value stands, with all of them, and the others in their order. -/
theorem mergeClasses_eq_ok {given attributes : List Attribute}
    (h : mergeClasses given = .ok attributes) :
    attributes = given ∨ ∃ front c rest value, given = front ++ c :: rest ∧
      classValue? c = some value ∧
      attributes = front ++ ⟨"class", joinClasses (value :: rest.filterMap classValue?), c.place⟩ ::
        rest.filter isNoClass := by
  obtain ⟨result, hresult, h⟩ := bind_eq_ok.mp h
  rw [pure_eq_ok] at h
  subst h
  cases hfind : given.find? fun a => (classValue? a).isSome with
  | none =>
    have hnone : ∀ a ∈ given, classValue? a = none := by
      intro a ha
      simpa using List.find?_eq_none.mp hfind a ha
    obtain ⟨h₁, h₂, -, -⟩ := foldlM_add_front hnone rfl hresult
    left
    simp [Gathered.attributes, h₁, h₂]
  | some c =>
    obtain ⟨hc, front, rest, rfl, hnone⟩ := List.find?_eq_some_iff_append.mp hfind
    obtain ⟨value, hvalue⟩ := Option.isSome_iff_exists.mp hc
    have hfront : ∀ a ∈ front, classValue? a = none := by
      intro a ha
      simpa using hnone a ha
    exact .inr ⟨front, c, rest, value, rfl, hvalue, attributes_of_class hfront hvalue hresult⟩

/-- An attribute after classes were joined was there before, or it is the joined classes. -/
theorem mem_mergeClasses {given attributes : List Attribute}
    (h : mergeClasses given = .ok attributes) {a : Attribute} (ha : a ∈ attributes) :
    a ∈ given ∨ a.name = "class" ∧ ∃ values, a.value = joinClasses values ∧
      ∀ v ∈ values, ∃ b ∈ given, classValue? b = some v := by
  rcases mergeClasses_eq_ok h with rfl | ⟨front, c, rest, value, rfl, hvalue, rfl⟩
  · exact .inl ha
  rcases List.mem_append.mp ha with ha | ha
  · exact .inl (List.mem_append_left _ ha)
  rcases List.mem_cons.mp ha with rfl | ha
  · refine .inr ⟨rfl, _, rfl, List.forall_mem_cons.mpr ⟨⟨c, by simp, hvalue⟩, fun v hv => ?_⟩⟩
    obtain ⟨b, hb, hclass⟩ := List.mem_filterMap.mp hv
    exact ⟨b, by simp [hb], hclass⟩
  · exact .inl (List.mem_append_right _ (List.mem_cons_of_mem _ (List.mem_of_mem_filter ha)))

theorem inspected_joined_cons (value : Content) (rest : List Content) :
    ∃ first, List.Sublist first (inspected value) ∧
      inspected (.joined (value :: rest)) = first ++ inspected (.joined rest) := by
  cases value with
  | dynamic e raw => exact ⟨[e], List.Sublist.refl _, by simp [inspected]⟩
  | literal | toggle | joined | unknown => exact ⟨[], List.nil_sublist _, by simp [inspected]⟩

theorem flaggedIn_joined (values : List Content) :
    List.Sublist (flaggedIn (.joined values)) (values.flatMap flaggedIn) := by
  induction values with
  | nil => simp [flaggedIn, inspected]
  | cons value rest ih =>
    obtain ⟨first, hfirst, heq⟩ := inspected_joined_cons value rest
    rw [flaggedIn, heq, List.filter_append, List.flatMap_cons]
    exact (hfirst.filter _).append ih

theorem flaggedIn_joinClasses (values : List Content) :
    List.Sublist (flaggedIn (joinClasses values)) (values.flatMap flaggedIn) := by
  unfold joinClasses
  split
  · exact List.nil_sublist _
  · exact flaggedIn_joined values

theorem flaggedIn_classValues (rest : List Attribute) :
    List.Sublist ((rest.filterMap classValue?).flatMap flaggedIn)
      (rest.flatMap Attribute.flagged) := by
  induction rest with
  | nil => exact List.Sublist.refl _
  | cons a rest ih =>
    cases hvalue : classValue? a with
    | none =>
      rw [List.filterMap_cons_none hvalue, List.flatMap_cons]
      exact List.sublist_append_of_sublist_right ih
    | some value =>
      rw [List.filterMap_cons_some hvalue, List.flatMap_cons, List.flatMap_cons]
      rw [← (value_of_classValue hvalue).1]
      exact ih.append_left _

theorem map_flagged (attributes : List Attribute) :
    List.Sublist ((attributes.flatMap Attribute.flagged).map Expr.place)
      (attributes.flatMap Attribute.places) := by
  induction attributes with
  | nil => exact List.Sublist.refl _
  | cons a rest ih =>
    rw [List.flatMap_cons, List.flatMap_cons, List.map_append]
    exact (List.sublist_cons_self _ _).append ih

/-- The places of joined classes are among those of the attributes that they were joined from. -/
theorem places_class {c : Attribute} {rest : List Attribute} {value : Content}
    (hvalue : classValue? c = some value) :
    List.Sublist
      (Attribute.places ⟨"class", joinClasses (value :: rest.filterMap classValue?), c.place⟩)
      ((c :: rest).flatMap Attribute.places) := by
  have hflagged : List.Sublist (flaggedIn (joinClasses (value :: rest.filterMap classValue?)))
      (c.flagged ++ rest.flatMap Attribute.flagged) := by
    have hvalues := flaggedIn_joinClasses (value :: rest.filterMap classValue?)
    have hc : flaggedIn value = c.flagged := by
      rw [Attribute.flagged, (value_of_classValue hvalue).1]
    rw [List.flatMap_cons, hc] at hvalues
    exact hvalues.trans ((flaggedIn_classValues rest).append_left _)
  rw [List.flatMap_cons]
  refine List.Sublist.cons_cons c.place ?_
  have hplaces := hflagged.map Expr.place
  rw [List.map_append] at hplaces
  exact hplaces.trans ((map_flagged rest).append_left _)

theorem places_of_isSingle_class {values : List Content} {place : Option Location}
    (h : Attribute.IsSingle ⟨"class", joinClasses values, place⟩) :
    Attribute.places ⟨"class", joinClasses values, place⟩ = [place] := by
  unfold joinClasses at h ⊢
  split
  · simp [Attribute.places, Attribute.flagged, flaggedIn, inspected]
  · next hall =>
    rw [if_neg hall] at h
    exact absurd rfl (h values)

theorem placesInOrder_class {c : Attribute} {rest : List Attribute} {value : Content}
    (hvalue : classValue? c = some value)
    (h : ((c :: rest).flatMap Attribute.places).Pairwise Location.InOrder) :
    PlacesInOrder (⟨"class", joinClasses (value :: rest.filterMap classValue?), c.place⟩ ::
      rest.filter isNoClass) := by
  have hback : List.Sublist ((rest.filter isNoClass).flatMap Attribute.places)
      (rest.flatMap Attribute.places) := List.filter_sublist.flatMap _
  have hall := h
  rw [List.flatMap_cons] at hall
  obtain ⟨-, hrest, hcross⟩ := List.pairwise_append.mp hall
  have hothers := placesInOrder_of_pairwise (hrest.sublist hback)
  refine ⟨List.forall_mem_cons.mpr ⟨h.sublist (places_class hvalue), hothers.each⟩,
    List.pairwise_cons.mpr ⟨?_, hothers.across⟩⟩
  intro b hb x hx y hy hplace
  -- only the place of the first class value is known to be in front of the others
  have hxc : x = c.place := by
    rcases hplace with hx | hsingle
    · exact hx
    · rw [places_of_isSingle_class hsingle] at hx
      exact List.mem_singleton.mp hx
  rw [hxc]
  exact hcross _ List.mem_cons_self y (hback.subset (List.mem_flatMap.mpr ⟨b, hb, hy⟩))

/-- **Joining classes keeps the order**, but for the expressions of the classes themselves. -/
theorem placesInOrder_mergeClasses {given attributes : List Attribute}
    (hgiven : (given.flatMap Attribute.places).Pairwise Location.InOrder)
    (h : mergeClasses given = .ok attributes) :
    PlacesInOrder attributes ∧ attributes.flatMap Attribute.places ⊆
      given.flatMap Attribute.places := by
  rcases mergeClasses_eq_ok h with rfl | ⟨front, c, rest, value, rfl, hvalue, rfl⟩
  · exact ⟨placesInOrder_of_pairwise hgiven, List.Subset.refl _⟩
  · have hclass := @places_class c rest value hvalue
    have hback : List.Sublist ((rest.filter isNoClass).flatMap Attribute.places)
        (rest.flatMap Attribute.places) := List.filter_sublist.flatMap _
    -- joining moves the values of later classes forward, but brings no new places
    have hsubset : (⟨"class", joinClasses (value :: rest.filterMap classValue?), c.place⟩ ::
        rest.filter isNoClass).flatMap Attribute.places ⊆
          (c :: rest).flatMap Attribute.places := by
      intro x hx
      rcases List.mem_append.mp hx with hx | hx
      · exact hclass.subset hx
      · exact List.mem_append_right _ (hback.subset hx)
    rw [List.flatMap_append] at hgiven ⊢
    rw [List.flatMap_append]
    obtain ⟨hfront, hbehind, hcross⟩ := List.pairwise_append.mp hgiven
    constructor
    · refine (placesInOrder_of_pairwise hfront).append (placesInOrder_class hvalue hbehind) ?_
      exact fun x hx y hy => hcross x hx y (hsubset hy)
    · exact List.append_subset.mpr ⟨List.subset_append_left _ _,
        List.Subset.trans hsubset (List.subset_append_right _ _)⟩

end Source

end Stencil
