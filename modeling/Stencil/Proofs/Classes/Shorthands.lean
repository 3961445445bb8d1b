import Stencil.Proofs.Classes.Choices

/-!
# Shorthands

Classes and ids in front of an element are joined with its attributes in one pass, which puts the
class attribute in its place before all classes are known and stops at a second id. **What comes of
it can be said without the pass** (`mergeClasses_iff`): it is refused exactly if there are two ids,
and otherwise the first attribute that gives a class becomes the one with all classes, the others of
that kind are gone, and the rest is as it was (`JoinsClasses`).
-/

namespace Stencil.Source

/-! ## Attributes that give a class -/

/-- Whether an attribute gives a class: it is called `class`, and its value is a text or an
expression. -/
def givesClass (a : Attribute) : Bool :=
  match a.value with
  | .literal _ => a.name == "class"
  | .dynamic .. => a.name == "class"
  | _ => false

/-- Several classes become one value: texts are joined by single spaces, the empty ones left out;
if they are not all texts, they are kept side by side. -/
inductive JoinsTo : List Content → Content → Prop
  | texts (texts : List String) :
    JoinsTo (texts.map .literal) (.literal (" ".intercalate (texts.filter fun s => !s.isEmpty)))
  | mixed {values : List Content} (h : ∃ v ∈ values, v.literal? = none) :
    JoinsTo values (.joined values)

/-- Attributes with their classes joined where the first of them stands. -/
inductive JoinsClasses : List Attribute → List Attribute → Prop
  | without {attributes : List Attribute} (h : ∀ a ∈ attributes, givesClass a = false) :
    JoinsClasses attributes attributes
  | atFirst {front rest : List Attribute} {c : Attribute} {value : Content}
    (hfront : ∀ a ∈ front, givesClass a = false) (hc : givesClass c = true)
    (hvalue : JoinsTo (((c :: rest).filter givesClass).map Attribute.value) value) :
    JoinsClasses (front ++ c :: rest)
      (front ++ ⟨"class", value, c.place⟩ :: rest.filter fun a => !givesClass a)

theorem classValue?_eq (a : Attribute) :
    classValue? a = if givesClass a then some a.value else none := by
  obtain ⟨name, value, place⟩ := a
  by_cases hname : name = "class" <;> cases value <;> simp [classValue?, givesClass, hname]

theorem isNoClass_eq (a : Attribute) : isNoClass a = !givesClass a := by
  rw [isNoClass, classValue?_eq]
  cases givesClass a <;> rfl

theorem filter_isNoClass (attributes : List Attribute) :
    attributes.filter isNoClass = attributes.filter fun a => !givesClass a :=
  List.filter_congr fun a _ => isNoClass_eq a

theorem filterMap_classValue? (attributes : List Attribute) :
    attributes.filterMap classValue? = (attributes.filter givesClass).map Attribute.value := by
  induction attributes with
  | nil => rfl
  | cons a rest ih =>
    have ha := classValue?_eq a
    cases hgives : givesClass a with
    | true =>
      rw [hgives, if_pos rfl] at ha
      rw [List.filterMap_cons_some ha, List.filter_cons_of_pos hgives, List.map_cons, ih]
    | false =>
      rw [hgives, if_neg (by decide)] at ha
      rw [List.filterMap_cons_none ha, List.filter_cons_of_neg (by simp [hgives]), ih]

theorem classValue?_none_iff {attributes : List Attribute} :
    (∀ a ∈ attributes, classValue? a = none) ↔ ∀ a ∈ attributes, givesClass a = false := by
  refine forall₂_congr fun a _ => ?_
  rw [classValue?_eq]
  cases givesClass a <;> simp

theorem literal_of_all {values : List Content}
    (h : values.all (fun c => c.literal?.isSome) = true) :
    values = (values.filterMap Content.literal?).map .literal := by
  induction values with
  | nil => rfl
  | cons value rest ih =>
    rw [List.all_cons, Bool.and_eq_true] at h
    cases value with
    | literal s => exact congrArg (Content.literal s :: ·) (ih h.2)
    | _ => cases h.1

theorem joinsTo_iff {values : List Content} {value : Content} :
    JoinsTo values value ↔ joinClasses values = value := by
  constructor
  · rintro (⟨texts⟩ | ⟨v, hv, hnone⟩)
    · have hall : (texts.map Content.literal).all (fun c => c.literal?.isSome) = true := by
        simp [Content.literal?]
      rw [joinClasses, if_pos hall, List.filterMap_map]
      have hsome : Content.literal? ∘ Content.literal = some := rfl
      rw [hsome, List.filterMap_some]
    · rw [joinClasses, if_neg]
      intro hall
      rw [List.all_eq_true] at hall
      exact absurd (hall v hv) (by simp [hnone])
  · rintro rfl
    by_cases hall : values.all (fun c => c.literal?.isSome) = true
    · have htexts := JoinsTo.texts (values.filterMap Content.literal?)
      rw [← literal_of_all hall] at htexts
      rw [joinClasses, if_pos hall]
      exact htexts
    · rw [joinClasses, if_neg hall]
      refine .mixed ?_
      simpa using hall

/-! ## Ids -/

/-- The first two items that have a property. -/
theorem exists_first_two {α : Type} {p : α → Bool} {items : List α} (h : 2 ≤ items.countP p) :
    ∃ front a middle b back, items = front ++ a :: middle ++ b :: back ∧ p a ∧ p b ∧
      ∀ c ∈ front ++ middle, p c = false := by
  obtain ⟨front, a, rest, rfl, ha, hfront⟩ :=
    exists_first (List.countP_pos_iff.mp (Nat.lt_of_lt_of_le Nat.zero_lt_two h))
  have hzero : front.countP p = 0 :=
    List.countP_eq_zero.mpr fun c hc => by simp [hfront c hc]
  rw [List.countP_append, List.countP_cons_of_pos ha, hzero] at h
  obtain ⟨middle, b, back, rfl, hb, hmiddle⟩ :=
    exists_first (List.countP_pos_iff.mp (show 0 < rest.countP p by omega))
  refine ⟨front, a, middle, b, back, by simp, ha, hb, fun c hc => ?_⟩
  exact (List.mem_append.mp hc).elim (hfront c) (hmiddle c)

theorem hasId_foldlM {attributes : List Attribute} {g result : Gathered}
    (h : attributes.foldlM Gathered.add g = .ok result) :
    result.hasId = (g.hasId || attributes.any fun a => a.name == "id") := by
  induction attributes generalizing g with
  | nil =>
    rw [List.foldlM_nil, pure_eq_ok] at h
    simp [h]
  | cons a rest ih =>
    rw [List.foldlM_cons] at h
    obtain ⟨next, hnext, h⟩ := bind_eq_ok.mp h
    have hadd : next.hasId = (g.hasId || a.name == "id") := by
      cases hvalue : classValue? a with
      | some value =>
        have hname : a.name ≠ "id" := fun hid =>
          absurd hvalue (by simp [classValue_none (a := a) (by simp [hid])])
        rw [add_class hvalue] at hnext
        cases hnext
        simp [hname]
      | none =>
        rw [add_of_none hvalue] at hnext
        split at hnext <;> cases hnext
        rfl
    rw [ih h, hadd, List.any_cons, Bool.or_assoc]

/-- A second id is refused where it stands, whatever comes behind it. -/
theorem mergeClasses_second_id {front middle back : List Attribute} {a b : Attribute}
    (ha : a.name = "id") (hb : b.name = "id") (hother : ∀ c ∈ front ++ middle, c.name ≠ "id") :
    mergeClasses (front ++ a :: middle ++ b :: back) = .error ⟨.duplicateId, b.place⟩ := by
  have hcount : (front ++ a :: middle).countP (fun a => a.name == "id") = 1 := by
    have hfront : front.countP (fun a => a.name == "id") = 0 := List.countP_eq_zero.mpr
      fun c hc => by simpa using hother c (List.mem_append_left _ hc)
    have hmiddle : middle.countP (fun a => a.name == "id") = 0 := List.countP_eq_zero.mpr
      fun c hc => by simpa using hother c (List.mem_append_right _ hc)
    rw [List.countP_append, List.countP_cons_of_pos (by simp [ha]), hfront, hmiddle]
  obtain ⟨g, hg⟩ := exists_foldlM_add (front ++ a :: middle) {} (by simp [hcount])
  have hid : g.hasId = true := by simp [hasId_foldlM hg, ha]
  have hadd : g.add b = .error ⟨.duplicateId, b.place⟩ := by
    rw [add_of_none (classValue_none (by simp [hb])), if_pos (by simp [hb, hid])]
  rw [mergeClasses, List.foldlM_append, hg]
  show (((b :: back).foldlM Gathered.add g) >>= fun result => pure result.attributes) = _
  rw [List.foldlM_cons, hadd]
  rfl

/-! ## Joining -/

theorem mergeClasses_of_joins {given attributes : List Attribute}
    (hids : given.countP (fun a => a.name == "id") ≤ 1) (h : JoinsClasses given attributes) :
    mergeClasses given = .ok attributes := by
  cases h with
  | without hnone =>
    obtain ⟨g, hg⟩ := exists_foldlM_add given {} hids
    obtain ⟨h₁, h₂, -, -⟩ := foldlM_add_front (classValue?_none_iff.mpr hnone) rfl hg
    rw [mergeClasses, hg]
    show Except.ok g.attributes = _
    simp [Gathered.attributes, h₁, h₂]
  | @atFirst front rest c value hfront hc hvalue =>
    have hclass : classValue? c = some c.value := by rw [classValue?_eq, if_pos hc]
    rw [mergeClasses_of_class hids (classValue?_none_iff.mpr hfront) hclass, filter_isNoClass,
      filterMap_classValue?]
    rw [List.filter_cons_of_pos hc, List.map_cons, joinsTo_iff] at hvalue
    rw [hvalue]

theorem exists_joinsClasses (given : List Attribute) :
    ∃ attributes, JoinsClasses given attributes := by
  by_cases hany : ∃ a ∈ given, givesClass a
  · obtain ⟨front, c, rest, rfl, hc, hfront⟩ := exists_first hany
    exact ⟨_, .atFirst hfront hc (joinsTo_iff.mpr rfl)⟩
  · exact ⟨given, .without fun a ha => by simpa using fun hgives => hany ⟨a, ha, hgives⟩⟩

/-- **What joining classes and ids does, without saying how.** Take any shorthands and any attributes
behind them. They are refused exactly if two of all these are ids, and then for the second one, at
its place. Otherwise, and only then, the first that gives a class is replaced by one attribute with
all classes, in its place and with its position, and no other gives a class any more; all others are
left as they are and in their order, toggles called `class` among them. -/
theorem mergeClasses_iff (shorthands attributes : List Attribute) :
    (∀ error, mergeClasses (shorthands ++ attributes) = .error error ↔
      ∃ front a middle b back,
        shorthands ++ attributes = front ++ a :: middle ++ b :: back ∧
        a.name = "id" ∧ b.name = "id" ∧ (∀ c ∈ front ++ middle, c.name ≠ "id") ∧
        error = ⟨.duplicateId, b.place⟩) ∧
    ∀ result, mergeClasses (shorthands ++ attributes) = .ok result ↔
      (shorthands ++ attributes).countP (fun a => a.name == "id") ≤ 1 ∧
        JoinsClasses (shorthands ++ attributes) result := by
  generalize shorthands ++ attributes = given
  have hrefused (h : 2 ≤ given.countP fun a => a.name == "id") :
      ∃ front a middle b back, given = front ++ a :: middle ++ b :: back ∧ a.name = "id" ∧
        b.name = "id" ∧ (∀ c ∈ front ++ middle, c.name ≠ "id") ∧
        mergeClasses given = .error ⟨.duplicateId, b.place⟩ := by
    obtain ⟨front, a, middle, b, back, rfl, ha, hb, hother⟩ := exists_first_two h
    simp only [beq_iff_eq] at ha hb
    have hother : ∀ c ∈ front ++ middle, c.name ≠ "id" := fun c hc => by simpa using hother c hc
    exact ⟨front, a, middle, b, back, rfl, ha, hb, hother, mergeClasses_second_id ha hb hother⟩
  -- there is exactly one result, so it is enough to know what is returned with two ids and with
  -- fewer
  obtain ⟨joined, hjoined⟩ := exists_joinsClasses given
  refine ⟨fun error => ⟨fun h => ?_, ?_⟩, fun result => ⟨fun h => ?_, fun h => ?_⟩⟩
  · by_cases hids : given.countP (fun a => a.name == "id") ≤ 1
    · rw [mergeClasses_of_joins hids hjoined] at h
      cases h
    · obtain ⟨front, a, middle, b, back, hgiven, ha, hb, hother, herror⟩ := hrefused (by omega)
      rw [herror] at h
      cases h
      exact ⟨front, a, middle, b, back, hgiven, ha, hb, hother, rfl⟩
  · rintro ⟨front, a, middle, b, back, rfl, ha, hb, hother, rfl⟩
    exact mergeClasses_second_id ha hb hother
  · by_cases hids : given.countP (fun a => a.name == "id") ≤ 1
    · rw [mergeClasses_of_joins hids hjoined] at h
      cases h
      exact ⟨hids, hjoined⟩
    · obtain ⟨_, _, _, _, _, -, -, -, -, herror⟩ := hrefused (by omega)
      rw [herror] at h
      cases h
  · exact mergeClasses_of_joins h.1 h.2

/-- A class and an id in front of an element. -/
def marks : List Attribute :=
  [⟨"class", .literal "a", some ⟨1, 2⟩⟩, ⟨"id", .literal "i", some ⟨1, 4⟩⟩]

/-- The expression `k`. -/
def classExpr : Expr :=
  ⟨"k", .name "k", none, reads_k⟩

/-- A toggle called `class`, another attribute, and a class given by an expression. -/
def others : List Attribute :=
  [⟨"class", .toggle classExpr, some ⟨1, 7⟩⟩, ⟨"title", .literal "t", some ⟨1, 16⟩⟩,
    ⟨"class", .dynamic classExpr false, some ⟨1, 26⟩⟩]

theorem mergeClasses_iff_marks :
    mergeClasses (marks ++ others) = .ok
      [⟨"class", .joined [.literal "a", .dynamic classExpr false], some ⟨1, 2⟩⟩,
        ⟨"id", .literal "i", some ⟨1, 4⟩⟩, ⟨"class", .toggle classExpr, some ⟨1, 7⟩⟩,
        ⟨"title", .literal "t", some ⟨1, 16⟩⟩] ∧
    mergeClasses (marks ++ [⟨"id", .literal "j", some ⟨1, 7⟩⟩]) =
      .error ⟨.duplicateId, some ⟨1, 7⟩⟩ := by
  have hmixed : JoinsTo [.literal "a", .dynamic classExpr false]
      (.joined [.literal "a", .dynamic classExpr false]) :=
    .mixed ⟨_, List.mem_cons_of_mem _ (List.mem_singleton_self _), rfl⟩
  constructor
  · refine ((mergeClasses_iff marks others).2 _).mpr ⟨by decide, ?_⟩
    exact JoinsClasses.atFirst (c := ⟨"class", .literal "a", some ⟨1, 2⟩⟩) (List.forall_mem_nil _) rfl
      hmixed
  · refine ((mergeClasses_iff marks [_]).1 _).mpr ?_
    exact ⟨[⟨"class", .literal "a", some ⟨1, 2⟩⟩], _, [], _, [], rfl, rfl, rfl, by simp, rfl⟩

end Stencil.Source
