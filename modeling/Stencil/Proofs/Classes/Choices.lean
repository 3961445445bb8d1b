import Stencil.Proofs.Classes.Values
import Stencil.Proofs.Components.Arguments
import Stencil.Proofs.Merging.StartTags
import Stencil.Proofs.Places.Order

/-!
# Class lists

The class values of an element may be texts or expressions, in any mix and order. Take a list of
attributes in which all of them are texts, and put expressions in place of some: a *choice*.
**Every choice renders like the list of texts** (`choices_render_alike`), if its expressions come to
these texts: the start tag of an element has the same class attribute in the same place, and a
component gets the same argument.

The proof splits a list at its first class value. What stands before it and what is no class value
after it is the same in every choice, so choices differ in the joined value only, and what that comes
to is known from `exists_classOp` and `argument_joinClasses`.
-/

namespace Stencil

open Source

/-! ## Joining attributes -/

/-- Attributes are gathered as long as there is no second id. -/
theorem exists_foldlM_add (attributes : List Attribute) (g : Gathered)
    (h : attributes.countP (fun a => a.name == "id") + (if g.hasId then 1 else 0) ≤ 1) :
    ∃ result, attributes.foldlM Gathered.add g = .ok result := by
  induction attributes generalizing g with
  | nil => exact ⟨g, rfl⟩
  | cons a rest ih =>
    rw [List.countP_cons] at h
    -- the ids that are still to come and the one that was met are together at most one
    have hadd : ∃ next, g.add a = .ok next ∧
        rest.countP (fun a => a.name == "id") + (if next.hasId then 1 else 0) ≤ 1 := by
      cases hvalue : classValue? a with
      | some value =>
        refine ⟨_, add_class hvalue, ?_⟩
        dsimp only
        omega
      | none =>
        have hfirst : ¬ (a.name == "id" && g.hasId) = true := by
          intro hsecond
          obtain ⟨hid, hhas⟩ := Bool.and_eq_true_iff.mp hsecond
          rw [if_pos hid, if_pos hhas] at h
          omega
        refine ⟨_, (add_of_none hvalue).trans (if_neg hfirst), ?_⟩
        dsimp only
        cases hid : a.name == "id" with
        | false =>
          rw [hid] at h
          rwa [Bool.or_false]
        | true =>
          rw [if_pos hid] at h
          rw [Bool.or_true, if_pos rfl]
          omega
    obtain ⟨next, hnext, hcount⟩ := hadd
    obtain ⟨result, hresult⟩ := ih next hcount
    exact ⟨result, by rw [List.foldlM_cons, hnext]; exact hresult⟩

theorem mergeClasses_of_class {front rest : List Attribute} {c : Attribute} {value : Content}
    (hids : (front ++ c :: rest).countP (fun a => a.name == "id") ≤ 1)
    (hfront : ∀ a ∈ front, classValue? a = none) (hvalue : classValue? c = some value) :
    mergeClasses (front ++ c :: rest) =
      .ok (front ++ ⟨"class", joinClasses (value :: rest.filterMap classValue?), c.place⟩ ::
        rest.filter isNoClass) := by
  obtain ⟨result, hresult⟩ := exists_foldlM_add (front ++ c :: rest) {} hids
  rw [mergeClasses, hresult, ← attributes_of_class hfront hvalue hresult]
  rfl

/-! ## Choices -/

/-- The class values of a list of attributes. -/
def classValues (attributes : List Attribute) : List Content :=
  attributes.filterMap classValue?

/-- The texts of a list of attributes whose class values are texts. -/
def classTexts (attributes : List Attribute) : List String :=
  (classValues attributes).filterMap Content.literal?

/-- All class values are texts, there is at least one, and at most one attribute is an id. -/
structure SettledClasses (attributes : List Attribute) : Prop where
  literal : ∀ a ∈ attributes, a.name = "class" → ∃ s, a.value = .literal s
  oneId : attributes.countP (fun a => a.name == "id") ≤ 1
  any : ∃ a ∈ attributes, a.name = "class"

/-- An attribute may stand for another: it is the same, or a class given by an expression. -/
def Chosen (a b : Attribute) : Prop :=
  b = a ∨ a.name = "class" ∧ ∃ e raw, b = { a with value := .dynamic e raw }

theorem Chosen.name {a b : Attribute} (h : Chosen a b) : b.name = a.name := by
  obtain rfl | ⟨-, e, raw, rfl⟩ := h <;> rfl

theorem Chosen.place {a b : Attribute} (h : Chosen a b) : b.place = a.place := by
  obtain rfl | ⟨-, e, raw, rfl⟩ := h <;> rfl

theorem classValue_none {a : Attribute} (h : a.name ≠ "class") : classValue? a = none := by
  simp [classValue?, h]

theorem isNoClass_of_ne {a : Attribute} (h : a.name ≠ "class") : isNoClass a = true := by
  simp [isNoClass, classValue_none h]

/-- What is chosen for a class is a class. -/
theorem Chosen.classValue {a b : Attribute} (h : Chosen a b) (hname : a.name = "class")
    (hliteral : ∃ s, a.value = .literal s) :
    ∃ value, classValue? b = some value ∧ value.IsClassValue := by
  obtain ⟨s, hs⟩ := hliteral
  obtain rfl | ⟨-, e, raw, rfl⟩ := h
  · exact ⟨.literal s, by simp [classValue?, hname, hs], trivial⟩
  · exact ⟨.dynamic e raw, by simp [classValue?, hname], trivial⟩

theorem literal_classValues {attributes : List Attribute}
    (h : ∀ a ∈ attributes, a.name = "class" → ∃ s, a.value = .literal s) :
    (classValues attributes).all (fun c => c.literal?.isSome) = true := by
  rw [List.all_eq_true]
  intro value hvalue
  obtain ⟨a, ha, hvalue⟩ := List.mem_filterMap.mp hvalue
  by_cases hname : a.name = "class"
  · obtain ⟨s, hs⟩ := h a ha hname
    simp only [classValue?, hname, hs, beq_self_eq_true, if_true, Option.some.injEq] at hvalue
    rw [← hvalue]
    rfl
  · rw [classValue_none hname] at hvalue
    cases hvalue

theorem name_of_isNoClass {attributes : List Attribute}
    (h : ∀ a ∈ attributes, a.name = "class" → ∃ s, a.value = .literal s) :
    ∀ a ∈ attributes.filter isNoClass, a.name ≠ "class" := by
  intro a ha hname
  obtain ⟨ha, hno⟩ := List.mem_filter.mp ha
  obtain ⟨s, hs⟩ := h a ha hname
  simp [isNoClass, classValue?, hname, hs] at hno

theorem Chosen.other {a b : Attribute} (h : Chosen a b) (hname : a.name ≠ "class") : b = a := by
  obtain rfl | ⟨hclass, -⟩ := h
  · rfl
  · exact absurd hclass hname

theorem others_of_chosen {attributes choice : List Attribute}
    (h : List.Forall₂ Chosen attributes choice)
    (hliteral : ∀ a ∈ attributes, a.name = "class" → ∃ s, a.value = .literal s) :
    choice.filter isNoClass = attributes.filter isNoClass ∧
      ∀ c ∈ choice.filterMap classValue?, c.IsClassValue := by
  induction h with
  | nil => exact ⟨rfl, nofun⟩
  | @cons a b as bs hab h ih =>
    rw [List.forall_mem_cons] at hliteral
    obtain ⟨hothers, hvalues⟩ := ih hliteral.2
    by_cases hname : a.name = "class"
    · obtain ⟨value, hvalue, hclass⟩ := hab.classValue hname (hliteral.1 hname)
      obtain ⟨value', hvalue', -⟩ := Chosen.classValue (.inl rfl) hname (hliteral.1 hname)
      refine ⟨by simp [isNoClass, hvalue, hvalue', hothers], ?_⟩
      rw [List.filterMap_cons_some hvalue, List.forall_mem_cons]
      exact ⟨hclass, hvalues⟩
    · rw [hab.other hname, List.filterMap_cons_none (classValue_none hname)]
      refine ⟨?_, hvalues⟩
      rw [List.filter_cons_of_pos (isNoClass_of_ne hname),
        List.filter_cons_of_pos (isNoClass_of_ne hname), hothers]

theorem countP_of_chosen {attributes choice : List Attribute}
    (h : List.Forall₂ Chosen attributes choice) :
    choice.countP (fun a => a.name == "id") = attributes.countP (fun a => a.name == "id") := by
  induction h with
  | nil => rfl
  | cons hab h ih => simp [List.countP_cons, ih, hab.name]

theorem exists_chosen {front rest choice : List Attribute} {c : Attribute}
    (hfront : ∀ a ∈ front, a.name ≠ "class")
    (h : List.Forall₂ Chosen (front ++ c :: rest) choice) :
    ∃ c' rest', choice = front ++ c' :: rest' ∧ Chosen c c' ∧ List.Forall₂ Chosen rest rest' := by
  induction front generalizing choice with
  | nil =>
    cases h with
    | cons hc h => exact ⟨_, _, rfl, hc, h⟩
  | cons a front ih =>
    cases h with
    | cons ha h =>
      obtain ⟨hname, hfront⟩ := List.forall_mem_cons.mp hfront
      obtain ⟨c', rest', rfl, hc, hrest⟩ := ih hfront h
      exact ⟨c', rest', by rw [ha.other hname]; rfl, hc, hrest⟩

/-! ## Start tags -/

namespace Generate

theorem attributesOps_around {front back : List Attribute} {a : Attribute} {p inner q : Plan}
    (hfront : attributesOps front = .ok p) (ha : attributeOps a = .ok inner)
    (hback : attributesOps back = .ok q) :
    attributesOps (front ++ a :: back) = .ok (p ++ inner ++ q) := by
  induction front generalizing p with
  | nil =>
    cases hfront
    rw [List.nil_append, attributesOps, ha, hback]
    rfl
  | cons b front ih =>
    rw [attributesOps] at hfront
    obtain ⟨first, hfirst, hfront⟩ := bind_eq_ok.mp hfront
    obtain ⟨others, hothers, hfront⟩ := bind_eq_ok.mp hfront
    rw [pure_eq_ok] at hfront
    subst hfront
    rw [List.cons_append, attributesOps, hfirst, ih hothers]
    exact congrArg Except.ok (by simp only [List.append_assoc])

theorem exists_attributesOps_around {front back : List Attribute} {a : Attribute} {ops : Plan}
    (h : attributesOps (front ++ a :: back) = .ok ops) :
    ∃ p q, attributesOps front = .ok p ∧ attributesOps back = .ok q := by
  induction front generalizing ops with
  | nil =>
    rw [List.nil_append, attributesOps] at h
    obtain ⟨_, _, h⟩ := bind_eq_ok.mp h
    obtain ⟨q, hq, _⟩ := bind_eq_ok.mp h
    exact ⟨[], q, rfl, hq⟩
  | cons b front ih =>
    rw [List.cons_append, attributesOps] at h
    obtain ⟨first, hfirst, h⟩ := bind_eq_ok.mp h
    obtain ⟨others, hothers, -⟩ := bind_eq_ok.mp h
    obtain ⟨p, q, hp, hq⟩ := ih hothers
    exact ⟨first ++ p, q, by rw [attributesOps, hfirst, hp]; rfl, hq⟩

theorem attributeOps_class {value : Content} {op : Op} (place : Option Location)
    (h : attributeValue value = .ok op) :
    attributeOps ⟨"class", value, place⟩ =
      .ok [.literal " class=\"", op, .literal "\""] := by
  cases value with
  | toggle e => cases h
  | _ =>
    unfold attributeOps
    dsimp only
    rw [h]
    rfl

/-- What stands in a tag is followed by the same operations, whatever it is. -/
theorem exists_after_tag {name : String} {attributes : List Attribute} {children : List Node}
    {void : Bool} {place : Option Location} {ops : Plan}
    (h : node (.element name attributes children void place) = .ok ops) :
    ∃ rest, ∀ {others : List Attribute} {inTag : Plan}, attributesOps others = .ok inTag →
      node (.element name others children void place) =
        .ok (.literal ("<" ++ name) :: inTag ++ .literal ">" :: rest) := by
  rw [node] at h
  obtain ⟨inTag, -, h⟩ := bind_eq_ok.mp h
  cases void with
  | true =>
    refine ⟨[], fun hinTag => ?_⟩
    rw [node, hinTag]
    rfl
  | false =>
    obtain ⟨inside, hinside, -⟩ := bind_eq_ok.mp h
    refine ⟨inside ++ [.literal s!"</{name}>"], fun hinTag => ?_⟩
    rw [node, hinTag, hinside]
    simp [pure, Except.pure, bind, Except.bind]

/-- Elements that differ in one attribute have operations that differ there only. -/
theorem exists_around {front back : List Attribute} {a : Attribute} {name : String}
    {children : List Node} {void : Bool} {place : Option Location} {ops : Plan}
    (h : node (.element name (front ++ a :: back) children void place) = .ok ops) :
    ∃ before after, ∀ {b : Attribute} {inner : Plan}, attributeOps b = .ok inner →
      node (.element name (front ++ b :: back) children void place) =
        .ok (before ++ inner ++ after) := by
  obtain ⟨rest, hrest⟩ := exists_after_tag h
  rw [node] at h
  obtain ⟨inTag, hinTag, -⟩ := bind_eq_ok.mp h
  obtain ⟨p, q, hp, hq⟩ := exists_attributesOps_around hinTag
  refine ⟨.literal ("<" ++ name) :: p, q ++ .literal ">" :: rest, fun hb => ?_⟩
  rw [hrest (attributesOps_around hp hb hq)]
  exact congrArg Except.ok (by simp only [List.append_assoc, List.cons_append])

end Generate

/-! ## Arguments of components -/

namespace Render

variable (run : Runner) (scope : Scope)

theorem arguments_append (xs ys : List (String × Content)) (done : Arguments) :
    arguments run scope (xs ++ ys) done =
      arguments run scope xs done >>= fun given => arguments run scope ys given := by
  induction xs generalizing done with
  | nil => rw [List.nil_append, arguments, pure_bind]
  | cons x xs ih =>
    obtain ⟨name, content⟩ := x
    rw [List.cons_append, arguments, arguments]
    simp only [bind_assoc, ih]

/-- Arguments of other names leave an argument as it is. -/
theorem named_arguments {name : String} {xs : List (String × Content)} {done given : Arguments}
    {w w' : World} (hxs : ∀ x ∈ xs, x.1 ≠ name)
    (h : arguments run scope xs done w = (.ok given, w')) :
    Value.named? name given = Value.named? name done := by
  have hname : name ∉ xs.map Prod.fst := by
    simpa [List.mem_map] using fun content hx => hxs (name, content) hx rfl
  rcases arguments_outcome xs done w with ⟨values, v, hvalues, heq⟩ | ⟨x, v, -, heq⟩ <;>
    rw [heq] at h <;> cases h
  exact Arguments.named_insertAll (hvalues.map_eq ▸ hname) done

end Render

/-! ## Every choice -/

open Render

/-- Joined classes render like the text that they come to, with some attributes in front and some
behind. In a tag the classes are evaluated where the text would be written, and all the rest is done
as it would be; if evaluating them leaves the world as it is, nothing differs at all. The merged plan
of the tag does the same. A component is given the text as it is, under the name `class`. -/
structure RendersAlike (run : Runner) (scope : Scope) (front back : List Attribute)
    (place : Option Location) (values : List Content) (texts : List String) : Prop where
  tag {name : String} {children : List Node} {void : Bool} {position : Option Location}
    {ops : Plan} (h : Generate.node (.element name
      (front ++ ⟨"class", .literal (Generate.joinTexts texts), place⟩ :: back)
      children void position) = .ok ops) :
    ∃ before after ops',
      ops = before ++ [.literal " class=\"", .literal (Text.escape (Generate.joinTexts texts)),
        .literal "\""] ++ after ∧
      Generate.node (.element name (front ++ ⟨"class", joinClasses values, place⟩ :: back)
        children void position) = .ok ops' ∧
      (∀ {w₀ w w' : World}, execPlan run (before ++ [.literal " class=\""]) scope w₀ = (.ok (), w) →
        Yields run scope values w texts w' →
          execPlan run ops' scope w₀ = execPlan run
            (.literal (Text.escape (Generate.joinTexts texts)) :: .literal "\"" :: after) scope w') ∧
      ((∀ w, Yields run scope values w texts w) →
        execPlan run ops' scope = execPlan run ops scope)
  merged (n : Nat) {name : String} {position : Option Location} {ops : Plan} {w : World}
    (h : Generate.node (.element name (front ++ ⟨"class", joinClasses values, place⟩ :: back) []
      true position) = .ok ops) (hw : w.buffer.room = none) :
    execPlan (performWithin n) ops.merge scope w = execPlan (performWithin n) ops scope w
  argument {w₀ w w' : World} {before : Arguments}
    (hfront : arguments run scope (Generate.arguments front) [] w₀ = (.ok before, w))
    (h : Yields run scope values w texts w') :
    ∃ m w₁,
      arguments run scope
          (Generate.arguments (front ++ ⟨"class", joinClasses values, place⟩ :: back)) [] w₀ =
        arguments run scope (Generate.arguments back)
          (before.insert "class" (.str m (Generate.joinTexts texts))) w₁ ∧
      ∀ {given : Arguments} {w₂ : World},
        arguments run scope
            (Generate.arguments (front ++ ⟨"class", joinClasses values, place⟩ :: back)) [] w₀ =
          (.ok given, w₂) →
        Value.named? "class" given = some (.str m (Generate.joinTexts texts))

theorem rendersAlike (run : Runner) (scope : Scope) (front back : List Attribute)
    (place : Option Location) {values : List Content} (texts : List String)
    (hvalues : ∀ c ∈ values, c.IsClassValue) (hback : ∀ a ∈ back, a.name ≠ "class") :
    RendersAlike run scope front back place values texts where
  tag h := by
    obtain ⟨op, hop, hexec⟩ := exists_classOp run scope hvalues
    obtain ⟨before, after, htag⟩ := Generate.exists_around h
    have hjoined : Generate.attributeValue (.literal (Generate.joinTexts texts)) =
      .ok (.literal (Text.escape (Generate.joinTexts texts))) := rfl
    have hops := htag (Generate.attributeOps_class place hjoined)
    rw [h] at hops
    have hchoice := htag (Generate.attributeOps_class place hop)
    refine ⟨before, after, _, Except.ok.inj hops, hchoice, fun hbefore hyields => ?_,
      fun hyields => ?_⟩
    · rw [show before ++ [.literal " class=\"", op, .literal "\""] ++ after =
        (before ++ [.literal " class=\""]) ++ op :: .literal "\"" :: after by simp]
      rw [execPlan_append, bind_of_ok hbefore, execPlan_cons, bind_apply, hexec hyields,
        ← bind_apply, ← execPlan_cons]
    · have hsame : execOp run op scope =
          execOp run (.literal (Text.escape (Generate.joinTexts texts))) scope :=
        funext fun w => hexec (hyields w)
      rw [Except.ok.inj hops]
      simp only [execPlan_append, execPlan_cons, hsame]
  merged n _ _ _ _ h hw := execPlan_merge_startTag n h scope hw
  argument {w₀ w w' before} hfront h := by
    have hclass : arguments run scope
        (Generate.arguments (front ++ ⟨"class", joinClasses values, place⟩ :: back)) [] w₀ =
        arguments run scope (Generate.arguments back)
          (before.insert "class" (.str (.made w'.nextId) (Generate.joinTexts texts)))
          { w' with nextId := w'.nextId + 1 } := by
      rw [Generate.arguments, List.map_append, List.map_cons, arguments_append,
        bind_of_ok (m := arguments run scope (front.map _) []) hfront, arguments,
        bind_of_ok (argument_joinClasses h)]
      rfl
    refine ⟨_, _, hclass, fun hgiven => ?_⟩
    rw [hclass] at hgiven
    rw [named_arguments run scope (fun x hx => ?_) hgiven, Value.named_insert_self]
    obtain ⟨a, ha, rfl⟩ := List.mem_map.mp hx
    exact hback a ha

/-- The first item that has a property. -/
theorem exists_first {α : Type} {p : α → Bool} {items : List α} (h : ∃ a ∈ items, p a) :
    ∃ front c rest, items = front ++ c :: rest ∧ p c ∧ ∀ a ∈ front, p a = false := by
  obtain ⟨c, hfind⟩ := Option.isSome_iff_exists.mp (List.find?_isSome.mpr h)
  obtain ⟨hc, front, rest, hitems, hfront⟩ := List.find?_eq_some_iff_append.mp hfind
  exact ⟨front, c, rest, hitems, hc, fun a ha => by simpa using hfront a ha⟩

theorem exists_first_class {attributes : List Attribute} (h : ∃ a ∈ attributes, a.name = "class") :
    ∃ front c rest, attributes = front ++ c :: rest ∧ c.name = "class" ∧
      ∀ a ∈ front, a.name ≠ "class" := by
  simpa using exists_first (p := fun a : Attribute => a.name == "class") (by simpa using h)

/-- **Class lists render the same whether known early or late.** Take attributes whose class values
are texts, with at most one id, and put expressions in place of any of these texts. The classes are
joined into one attribute where the first class stands, whatever was chosen, and if they come to the
texts, the attribute renders like the text that joins those that are not empty. -/
theorem choices_render_alike (run : Runner) (scope : Scope) {attributes : List Attribute}
    (h : SettledClasses attributes) :
    ∃ front c rest, attributes = front ++ c :: rest ∧ c.name = "class" ∧
      (∀ a ∈ front, a.name ≠ "class") ∧
      mergeClasses attributes = .ok (front ++
        ⟨"class", .literal (Generate.joinTexts (classTexts attributes)), c.place⟩ ::
          rest.filter isNoClass) ∧
      ∀ choice, List.Forall₂ Chosen attributes choice →
        mergeClasses choice = .ok (front ++
          ⟨"class", joinClasses (classValues choice), c.place⟩ :: rest.filter isNoClass) ∧
        RendersAlike run scope front (rest.filter isNoClass) c.place (classValues choice)
          (classTexts attributes) := by
  obtain ⟨front, c, rest, rfl, hclass, hfront⟩ := exists_first_class h.any
  have hnone : ∀ a ∈ front, classValue? a = none := fun a ha => classValue_none (hfront a ha)
  have hrest : ∀ a ∈ c :: rest, a.name = "class" → ∃ s, a.value = .literal s :=
    fun a ha => h.literal a (List.mem_append_right front ha)
  obtain ⟨s, hs⟩ := hrest c List.mem_cons_self hclass
  -- a choice keeps the names and the places, so its classes are joined where those of the texts are
  have hmerged {choice : List Attribute} (hchoice : List.Forall₂ Chosen (front ++ c :: rest) choice) :
      mergeClasses choice = .ok (front ++
        ⟨"class", joinClasses (classValues choice), c.place⟩ :: rest.filter isNoClass) := by
    have hids := countP_of_chosen hchoice ▸ h.oneId
    obtain ⟨c', rest', rfl, hc, hrest'⟩ := exists_chosen hfront hchoice
    obtain ⟨value, hvalue, -⟩ := hc.classValue hclass ⟨s, hs⟩
    rw [mergeClasses_of_class hids hnone hvalue, classValues, List.filterMap_append,
      List.filterMap_cons_some hvalue, List.filterMap_eq_nil_iff.mpr hnone, hc.place,
      (others_of_chosen hrest' (fun a ha => hrest a (List.mem_cons_of_mem c ha))).1]
    rfl
  refine ⟨front, c, rest, rfl, hclass, hfront, ?_, fun choice hchoice => ⟨hmerged hchoice, ?_⟩⟩
  · rw [hmerged (List.forall₂_same.mpr fun a _ => .inl rfl), joinClasses_literals ?_]
    · rfl
    · exact literal_classValues h.literal
  · refine rendersAlike run scope front _ c.place _ (others_of_chosen hchoice h.literal).2 ?_
    exact name_of_isNoClass fun a ha => hrest a (List.mem_cons_of_mem c ha)

set_option maxRecDepth 20000 in
theorem reads_k : Term.read? (Expr.codeText "k") = some (.name "k") := rfl

/-- Two classes with an id between them; the second class is empty. -/
def badge : List Attribute :=
  [⟨"class", .literal "a", none⟩, ⟨"id", .literal "i", none⟩, ⟨"class", .literal "", none⟩]

/-- The same with an expression for the second class. -/
def badgeChoice : List Attribute :=
  [⟨"class", .literal "a", none⟩, ⟨"id", .literal "i", none⟩,
    ⟨"class", .dynamic ⟨"k", .name "k", none, reads_k⟩ false, none⟩]

theorem choices_render_alike_badge : SettledClasses badge ∧
    List.Forall₂ Chosen badge badgeChoice ∧
    ∃ merged merged' ops ops', mergeClasses badge = .ok merged ∧
      mergeClasses badgeChoice = .ok merged' ∧
      Generate.node (.element "p" merged [] true none) = .ok ops ∧
      Generate.node (.element "p" merged' [] true none) = .ok ops' ∧
      execPlan (performWithin 1) ops' [("k", .none)] =
        execPlan (performWithin 1) ops [("k", .none)] := by
  have hsettled : SettledClasses badge := by
    refine ⟨?_, by decide, ⟨_, List.mem_cons_self, rfl⟩⟩
    simp [badge]
  have hchosen : List.Forall₂ Chosen badge badgeChoice :=
    .cons (.inl rfl) (.cons (.inl rfl) (.cons (.inr ⟨rfl, _, _, rfl⟩) .nil))
  have hyields (w : World) : Yields (performWithin 1) [("k", .none)] (classValues badgeChoice) w
      (classTexts badge) w := .literal "a" (.dynamic false rfl rfl (.nil w))
  obtain ⟨front, c, rest, -, -, -, hmerged, halike⟩ :=
    choices_render_alike (performWithin 1) [("k", .none)] hsettled
  obtain ⟨hmerged', halike⟩ := halike badgeChoice hchosen
  refine ⟨hsettled, hchosen, ?_⟩
  have hops : ∃ ops, Generate.node (.element "p" (front ++ ⟨"class",
      .literal (Generate.joinTexts (classTexts badge)), c.place⟩ :: rest.filter isNoClass) []
      true none) = .ok ops := by
    rw [← Except.ok.inj hmerged]
    exact ⟨_, rfl⟩
  obtain ⟨ops, hops⟩ := hops
  obtain ⟨_, _, ops', -, hops', -, hsame⟩ := halike.tag hops
  exact ⟨_, _, ops, ops', hmerged, hmerged', hops, hops', hsame hyields⟩

end Stencil
