import Stencil.Proofs.Checking.Valid
import Stencil.Proofs.Places.Made
import Stencil.Proofs.Places.Order
import Stencil.Proofs.Places.Spots

/-!
# Elements know where they were read

An element that was read from a source carries the places of what it was read from: its own is that
of the first spot of the surface element, and those of its attributes are among the others, in
their order. This is said of the elements of a whole tree at once, since the walk meets them in the
order in which the surface tree has them.
-/

namespace Stencil

open Schema Source

/-! ## The elements of a tree -/

/-- The elements among all nodes of a tree, in document order. -/
def elements (nodes : List Node) : List Node :=
  (walk nodes).filter fun n => n.element?.isSome

/-! ## Attributes -/

namespace Source

variable {source : List Char}

/-- Where spots are. -/
def spotPlaces (source : List Char) (spots : List Spot) : List (Option Location) :=
  spots.map fun s => locate source s.offset

/-- The value of an attribute that is always on has no quotes in it. -/
theorem isAmbiguous_true {e : Expr} {place : Option Location}
    (h : Expr.ofSource "True" place = .ok e) : isAmbiguous e = false := by
  have hinner : e.inner = ['r', 'u'] := by
    rw [Expr.inner, (Expr.ofSource_eq_ok h).1, String.toList_ofList]
    decide
  simp [isAmbiguous, hinner]

/-- The expression of a lexeme, if it is refused, begins where the lexeme does. -/
theorem flagged_readExpr {l : Lexeme} {e : Expr} (h : readExpr source l = .ok e) :
    List.Sublist (([e].filter isAmbiguous).map Expr.place) [locate source l.offset] := by
  have hplace : [e].map Expr.place = [locate source l.offset] := by
    simp [(Expr.ofSource_eq_ok h).2.2]
  rw [← hplace]
  exact List.filter_sublist.map _

theorem places_readAttribute {s : SurfaceAttribute} {a : Attribute}
    (h : readAttribute source s = .ok a) :
    List.Sublist a.places (spotPlaces source s.spots) ∧ a.IsSingle := by
  obtain ⟨value, hvalue, h⟩ := bind_eq_ok.mp h
  rw [pure_eq_ok] at h
  subst h
  have hplaces : List.Sublist ((flaggedIn value).map Expr.place)
      (spotPlaces source ((s.value.map SurfaceValue.spots).getD [])) ∧
        ∀ parts, value ≠ .joined parts := by
    cases hs : s.value with
    | none =>
      rw [hs] at hvalue
      obtain ⟨e, he, hvalue⟩ := bind_eq_ok.mp hvalue
      rw [pure_eq_ok] at hvalue
      subst hvalue
      simp [flaggedIn, inspected, isAmbiguous_true he]
    | some given =>
      rw [hs] at hvalue
      cases given with
      | quoted literal =>
        cases hvalue
        simp [flaggedIn, inspected]
      | single literal => cases hvalue
      | expr body | toggle body =>
        obtain ⟨e, he, hvalue⟩ := bind_eq_ok.mp hvalue
        rw [pure_eq_ok] at hvalue
        subst hvalue
        exact ⟨flagged_readExpr he, by simp⟩
  exact ⟨hplaces.1.cons_cons _, hplaces.2⟩

theorem places_readShorthand {s : Shorthand} {a : Attribute}
    (h : readShorthand source s = .ok a) :
    List.Sublist a.places (spotPlaces source s.spots) ∧ a.IsSingle := by
  obtain ⟨value, hvalue, h⟩ := bind_eq_ok.mp h
  rw [pure_eq_ok] at h
  subst h
  have hplaces : List.Sublist ((flaggedIn value).map Expr.place)
      (spotPlaces source s.value.spots) ∧ ∀ parts, value ≠ .joined parts := by
    cases hs : s.value with
    | name text | quoted literal =>
      rw [hs] at hvalue
      cases hvalue
      simp [flaggedIn, inspected]
    | expr body =>
      rw [hs] at hvalue
      obtain ⟨e, he, hvalue⟩ := bind_eq_ok.mp hvalue
      rw [pure_eq_ok] at hvalue
      subst hvalue
      exact ⟨flagged_readExpr he, by simp⟩
  exact ⟨hplaces.1.cons_cons _, hplaces.2⟩

/-- What holds of attributes that are read one by one. -/
theorem places_mapM {α : Type} {read : α → Except SourceError Attribute} {spots : α → List Spot}
    (hread : ∀ s a, read s = .ok a → List.Sublist a.places (spotPlaces source (spots s)) ∧ a.IsSingle)
    {items : List α} {given : List Attribute} (h : items.mapM read = .ok given) :
    List.Sublist (given.flatMap Attribute.places) (spotPlaces source (items.flatMap spots)) ∧
      ∀ a ∈ given, a.IsSingle := by
  have hall := mapM_eq_ok h
  clear h
  induction hall with
  | nil => exact ⟨List.nil_sublist _, List.forall_mem_nil _⟩
  | cons hone _ ih =>
    obtain ⟨hplaces, hsingle⟩ := hread _ _ hone
    rw [List.flatMap_cons, List.flatMap_cons, spotPlaces, List.map_append]
    exact ⟨hplaces.append ih.1, List.forall_mem_cons.mpr ⟨hsingle, ih.2⟩⟩

theorem places_readAttributes {shorthands : List Shorthand} {attributes : List SurfaceAttribute}
    {given : List Attribute × Bool} (h : readAttributes source shorthands attributes = .ok given) :
    List.Sublist (given.1.flatMap Attribute.places)
        (spotPlaces source (tagSpots shorthands attributes)) ∧
      (∀ a ∈ given.1, a.IsSingle) ∧
      (given.2 = true → ∃ s ∈ tagSpots shorthands attributes, s.short = true) := by
  obtain ⟨front, hfront, h⟩ := bind_eq_ok.mp h
  obtain ⟨back, hback, h⟩ := bind_eq_ok.mp h
  rw [pure_eq_ok] at h
  subst h
  obtain ⟨hplaces, hsingle⟩ := places_mapM (fun _ _ => places_readShorthand) hfront
  obtain ⟨hplaces', hsingle'⟩ := places_mapM (fun _ _ => places_readAttribute) hback
  refine ⟨?_, List.forall_mem_append.mpr ⟨hsingle, hsingle'⟩, ?_⟩
  · rw [List.flatMap_append, tagSpots, spotPlaces, List.map_append]
    exact hplaces.append hplaces'
  · intro hne
    -- without shorthands there is nothing to join
    cases shorthands with
    | nil =>
      rw [List.mapM_nil, pure_eq_ok] at hfront
      simp [← hfront] at hne
    | cons s rest => exact ⟨⟨s.offset, true⟩, by simp [tagSpots, Shorthand.spots], rfl⟩

end Source

/-! ## Elements -/

/-- What an element was read from: the first spot is where it begins, and the others are those of
its attributes. Classes were joined only if there is one in front of the attributes. -/
inductive Node.Stamped (source : List Char) : Node → List Spot → Prop
  | element {name : String} {given attributes : List Attribute} {children : List Node} {void : Bool}
      {offset : Nat} {spots : List Spot}
      (hplaces : List.Sublist (given.flatMap Attribute.places) (spotPlaces source spots))
      (hsingle : ∀ a ∈ given, a.IsSingle)
      (hsettled : attributes = given ∨
        (∃ s ∈ spots, s.short = true) ∧ mergeClasses given = .ok attributes) :
      Stamped source (.element name attributes children void (locate source offset))
        (⟨offset, false⟩ :: spots)

/-- The spots of elements one after the other are among the given ones, in their order. -/
def AreStamped (source : List Char) (nodes : List Node) (spots : List Spot) : Prop :=
  ∃ own : List (List Spot), List.Forall₂ (Node.Stamped source) nodes own ∧
    List.Sublist own.flatten spots

namespace AreStamped

variable {source : List Char} {nodes : List Node} {spots more : List Spot}

theorem nil : AreStamped source [] spots :=
  ⟨[], .nil, List.nil_sublist _⟩

theorem weaken (h : AreStamped source nodes more) :
    AreStamped source nodes (spots ++ more) := by
  obtain ⟨own, hown, hsub⟩ := h
  exact ⟨own, hown, List.sublist_append_of_sublist_right hsub⟩

theorem cons {n : Node} (hn : n.Stamped source spots) (h : AreStamped source nodes more) :
    AreStamped source (n :: nodes) (spots ++ more) := by
  obtain ⟨own, hown, hsub⟩ := h
  exact ⟨spots :: own, .cons hn hown, hsub.append_left spots⟩

end AreStamped

/-! ## Reading -/

variable {source : List Char}

theorem Node.MadeFrom.stamped {n : Node} {s : Surface} (h : n.MadeFrom source s)
    (hn : n.element?.isSome) : n.Stamped source s.ownSpots := by
  cases h with
  | @element offset name shorthands attributes children closing given settled inner _
      hgiven hsettled h =>
    rcases makeElement_eq_ok source h with ⟨reference, -, rfl⟩ | rfl
    · cases hn
    · obtain ⟨hplaces, hsingle, hshort⟩ := places_readAttributes hgiven
      refine .element (hplaces.cons _) hsingle ?_
      obtain ⟨given, _ | _⟩ := given
      · cases hsettled
        exact .inl rfl
      · obtain ⟨s, hs, hs_short⟩ := hshort rfl
        exact .inr ⟨⟨s, List.mem_cons_of_mem _ hs, hs_short⟩, hsettled⟩
  | _ => cases hn

/-- The elements among nodes that are made from surface nodes know the spots of these. -/
theorem stamped_elements {nodes : List Node} {surface : List Surface}
    (h : List.SublistForall₂ (Node.MadeFrom source) nodes surface) :
    AreStamped source (nodes.filter fun n => n.element?.isSome)
      (surface.flatMap Surface.ownSpots) := by
  induction h with
  | nil => exact .nil
  | @cons n s nodes surface hn _ ih =>
    rw [List.filter_cons, List.flatMap_cons]
    split
    · next helement => exact .cons (hn.stamped helement) ih
    · exact ih.weaken
  | cons_right _ ih =>
    rw [List.flatMap_cons]
    exact ih.weaken

/-- **The elements of a tree that was read, in document order, were read from spots of the source
in ascending order.** -/
theorem Source.stamped_readChars {dialect : Dialect} {nodes : List Node}
    (h : readChars dialect source = .ok nodes) :
    ∃ spots, Ascends (dialect = .maud) spots source.length ∧
      AreStamped source (elements nodes) spots := by
  obtain ⟨surface, hsurface, hmade⟩ := made_readChars h
  refine ⟨spotsOf surface, ascends_recognize hsurface, ?_⟩
  rw [spotsOf_eq]
  exact stamped_elements hmade

end Stencil
