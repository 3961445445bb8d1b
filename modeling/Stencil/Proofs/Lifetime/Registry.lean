import Stencil.Schema.Request
import Mathlib.Logic.Relation

/-!
# What lasts in a registry

A registry serves any requests in any order, and some are refused. What is in the table stays there
and is found as it was; families and the acceptance of custom elements are never taken back; and
once the registry is in use, nothing that it is asked changes what it answers.

Whatever a request does is made of single steps (`steps_serve`): an open registry gets one thing
more, or it is closed. What a step keeps, every run keeps.
-/

namespace Stencil.Schema.Registry

variable {r r' r'' : Registry}

/-! ## Steps -/

/-- The names in the table are distinct. -/
def Distinct (r : Registry) : Prop :=
  (r.entries.map Entry.name).Nodup

/-- A single step: one thing more in an open registry, or its closing. -/
inductive Step (r : Registry) : Registry → Prop
  | element (e : Entry) : r.frozen = false → r.stored? e.name = none →
    Step r { r with entries := r.entries ++ [e] }
  | family (f : Family) : r.frozen = false → Step r { r with families := r.families ++ [f] }
  | custom : r.frozen = false → Step r { r with customElements := true }
  | freeze : Step r r.freeze

/-- Any number of steps. -/
def Steps : Registry → Registry → Prop :=
  Relation.ReflTransGen Step

theorem Steps.refl (r : Registry) : r.Steps r :=
  Relation.ReflTransGen.refl

theorem Steps.trans (h : r.Steps r') (h' : r'.Steps r'') : r.Steps r'' :=
  Relation.ReflTransGen.trans h h'

theorem Step.steps (h : r.Step r') : r.Steps r' :=
  Relation.ReflTransGen.single h

/-! ## What steps keep -/

/-- One registry is another with more in it. -/
structure Extends (r r' : Registry) : Prop where
  entries : r.entries <+: r'.entries
  families : r.families <+: r'.families
  customElements : r.customElements = true → r'.customElements = true

theorem Extends.trans (h : r.Extends r') (h' : r'.Extends r'') : r.Extends r'' :=
  ⟨List.IsPrefix.trans h.entries h'.entries, List.IsPrefix.trans h.families h'.families,
    fun hc => h'.customElements (h.customElements hc)⟩

theorem Step.extends (h : r.Step r') : r.Extends r' := by
  cases h with
  | element e => exact ⟨List.prefix_append .., List.prefix_rfl, id⟩
  | family f => exact ⟨List.prefix_rfl, List.prefix_append .., id⟩
  | custom => exact ⟨List.prefix_rfl, List.prefix_rfl, fun _ => rfl⟩
  | freeze => exact ⟨List.prefix_rfl, List.prefix_rfl, id⟩

theorem Steps.extends (h : r.Steps r') : r.Extends r' := by
  induction h with
  | refl => exact ⟨List.prefix_rfl, List.prefix_rfl, id⟩
  | tail _ step ih => exact ih.trans step.extends

theorem not_mem_names {name : String} (h : r.stored? name = none) :
    name ∉ r.entries.map Entry.name := by
  intro hmem
  obtain ⟨e, he, rfl⟩ := List.mem_map.mp hmem
  exact List.find?_eq_none.mp h e he (beq_self_eq_true _)

theorem Step.distinct (h : r.Step r') (hr : r.Distinct) : r'.Distinct := by
  cases h with
  | element e _ hname =>
    rw [Distinct, List.map_append]
    refine List.nodup_append.mpr ⟨hr, List.pairwise_singleton .., ?_⟩
    rintro a ha b hb rfl
    exact not_mem_names hname (List.mem_singleton.mp hb ▸ ha)
  | family f => exact hr
  | custom => exact hr
  | freeze => exact hr

theorem Steps.distinct (h : r.Steps r') (hr : r.Distinct) : r'.Distinct := by
  induction h with
  | refl => exact hr
  | tail _ step ih => exact step.distinct ih

theorem freeze_of_frozen (h : r.frozen = true) : r.freeze = r := by
  rw [freeze, ← h]

theorem Step.eq_of_frozen (h : r.Step r') (hr : r.frozen = true) : r' = r := by
  cases h with
  | element e hopen => rw [hr] at hopen; cases hopen
  | family f hopen => rw [hr] at hopen; cases hopen
  | custom hopen => rw [hr] at hopen; cases hopen
  | freeze => exact freeze_of_frozen hr

/-- **A registry in use does not change.** -/
theorem Steps.eq_of_frozen (h : r.Steps r') (hr : r.frozen = true) : r' = r := by
  induction h with
  | refl => rfl
  | tail _ step ih =>
    subst ih
    exact step.eq_of_frozen hr

/-! ## What requests do -/

theorem checkOpen_of_frozen (h : r.frozen = true) (change : Change) :
    r.checkOpen change = .error (.frozen change) :=
  if_pos h

theorem checkOpen_of_open (h : r.frozen = false) (change : Change) :
    r.checkOpen change = .ok () :=
  if_neg (by rw [h]; exact Bool.false_ne_true)

theorem steps_register {name : String} {settings : Settings} {e : Entry}
    (h : r.register name settings = .ok (r', e)) : r.Steps r' := by
  rw [register] at h
  cases hr : r.frozen with
  | true =>
    rw [checkOpen_of_frozen hr] at h
    cases h
  | false =>
    rw [checkOpen_of_open hr] at h
    cases hname : r.stored? name with
    | some other =>
      rw [hname] at h
      cases h
    | none =>
      rw [hname] at h
      cases h
      exact (Step.element (.make name settings) hr hname).steps

theorem steps_define (r : Registry) (settings : Settings) (names : List String) :
    r.Steps (r.define settings names).1 := by
  induction names generalizing r with
  | nil => exact .refl r
  | cons name rest ih =>
    rw [define]
    cases h : r.register name settings with
    | error e => exact .refl r
    | ok made => exact (steps_register h).trans (ih made.1)

theorem steps_addFamily (h : r.frozen = false) (f : Family) : r.Steps (r.addFamily f) := by
  unfold addFamily
  split
  · exact .refl r
  · exact (Step.family f h).steps

theorem frozen_addFamily (r : Registry) (f : Family) : (r.addFamily f).frozen = r.frozen := by
  unfold addFamily
  split <;> rfl

theorem steps_addFamilies (h : r.frozen = false) (names : List String) :
    r.Steps (r.addFamilies names).1 := by
  induction names generalizing r with
  | nil => exact .refl r
  | cons name rest ih =>
    rw [addFamilies]
    cases Family.ofName? name with
    | none => exact .refl r
    | some f => exact (steps_addFamily h f).trans (ih ((frozen_addFamily r f).trans h))

theorem steps_enable (r : Registry) (names : List String) : r.Steps (r.enable names).1 := by
  rw [enable]
  cases h : r.frozen with
  | true =>
    rw [checkOpen_of_frozen h]
    exact .refl r
  | false =>
    rw [checkOpen_of_open h]
    exact steps_addFamilies h names

theorem steps_allowCustom (h : r.allowCustom = .ok r') : r.Steps r' := by
  rw [allowCustom] at h
  cases hr : r.frozen with
  | true =>
    rw [checkOpen_of_frozen hr] at h
    cases h
  | false =>
    rw [checkOpen_of_open hr] at h
    cases h
    exact (Step.custom hr).steps

/-- **Whatever a registry is asked, and whether it refuses or not, it only takes steps.** -/
theorem steps_serve (r : Registry) (q : Request) : r.Steps (r.serve q).1 := by
  cases q with
  | register name settings =>
    rw [serve]
    cases h : r.register name settings with
    | ok made => exact steps_register h
    | error e => exact .refl r
  | define settings names => exact steps_define r settings names
  | enable families => exact steps_enable r families
  | allowCustom =>
    rw [serve]
    cases h : r.allowCustom with
    | ok changed => exact steps_allowCustom h
    | error e => exact .refl r
  | freeze => exact Step.freeze.steps
  | validate nodes => exact Step.freeze.steps
  | lookup name => exact .refl r
  | allows entry attr => exact .refl r

theorem frozen_serve {q : Request} (h : q.closes = true) (r : Registry) :
    (r.serve q).1.frozen = true := by
  cases q with
  | freeze => rfl
  | validate nodes => rfl
  | _ => cases h

/-! ## Runs -/

theorem serveAll_append (r : Registry) (before after : List Request) :
    r.serveAll (before ++ after) = (r.serveAll before).serveAll after :=
  List.foldl_append ..

theorem steps_serveAll (r : Registry) (requests : List Request) :
    r.Steps (r.serveAll requests) := by
  induction requests generalizing r with
  | nil => exact .refl r
  | cons q rest ih => exact (steps_serve r q).trans (ih _)

theorem frozen_serveAll (r : Registry) {requests : List Request}
    (h : ∃ q ∈ requests, q.closes = true) : (r.serveAll requests).frozen = true := by
  obtain ⟨q, hq, hcloses⟩ := h
  obtain ⟨before, after, rfl⟩ := List.append_of_mem hq
  rw [serveAll_append, serveAll_cons]
  have hfrozen := frozen_serve hcloses (r.serveAll before)
  rwa [(steps_serveAll _ after).eq_of_frozen hfrozen]

theorem distinct_fresh (html : Bool) : (fresh html).Distinct := by
  cases html with
  | true =>
    have hnames : (fresh true).entries.map Entry.name =
      Html.containers.map Prod.fst ++ Html.voids.map Prod.fst := rfl
    rw [Distinct, hnames]
    decide +kernel
  | false => exact List.nodup_nil

/-- An element in the table is the one that is found. -/
theorem lookup_of_mem (h : r.Distinct) {e : Entry} (he : e ∈ r.entries) :
    r.lookup e.name = some e := by
  obtain ⟨before, after, hsplit⟩ := List.append_of_mem he
  rw [Distinct, hsplit, List.map_append, List.map_cons] at h
  have hbefore : ∀ e' ∈ before, ¬(e'.name == e.name) := by
    intro e' he' heq
    refine (List.nodup_append.mp h).2.2 _ (List.mem_map_of_mem he') _ (List.mem_cons_self ..) ?_
    exact eq_of_beq heq
  have hstored : r.stored? e.name = some e := by
    rw [stored?, hsplit, List.find?_append, List.find?_eq_none.mpr hbefore, Option.none_or]
    exact List.find?_cons_of_pos (beq_self_eq_true e.name)
  rw [lookup, hstored]

/-- **What a registry knows, it knows for good.** After any requests, and after any more of them,
every element that was in the table is found as it was; enabled families stay enabled, and custom
elements stay accepted; and if the registry was closed or a tree was checked against it, its answers
are the same for every name, every entry and every attribute. -/
theorem lasting_serveAll (html : Bool) (before after : List Request) :
    let r := (fresh html).serveAll before
    let r' := r.serveAll after
    (∀ e ∈ r.entries, r'.lookup e.name = some e) ∧
    (∀ f ∈ r.families, f ∈ r'.families) ∧
    (r.customElements = true → r'.customElements = true) ∧
    ((∃ q ∈ before, q.closes = true) →
      (∀ name, r'.lookup name = r.lookup name) ∧
      ∀ entry attr, r'.allows entry attr = r.allows entry attr) := by
  intro r r'
  have hsteps : r.Steps r' := steps_serveAll r after
  have hdistinct : r'.Distinct :=
    ((steps_serveAll _ before).trans hsteps).distinct (distinct_fresh html)
  refine ⟨fun e he => ?_, fun f hf => ?_, hsteps.extends.customElements, fun hclosed => ?_⟩
  · exact lookup_of_mem hdistinct (List.IsPrefix.subset hsteps.extends.entries he)
  · exact List.IsPrefix.subset hsteps.extends.families hf
  · have hsame : r' = r := hsteps.eq_of_frozen (frozen_serveAll _ hclosed)
    rw [hsame]
    exact ⟨fun _ => rfl, fun _ _ => rfl⟩

/-- The second of two elements of one name is refused, as are requests to a registry in use. -/
theorem lasting_serveAll_card :
    let card : Settings := { isVoid := true, attributes := ["tone"] }
    let before : List Request :=
      [.define card ["my-card", "my-card"], .enable ["alpine", "none"], .freeze]
    let after : List Request :=
      [.register "my-card" {}, .enable ["htmx"], .allowCustom, .validate []]
    let r := (fresh true).serveAll before
    let r' := r.serveAll after
    (.make "my-card" card ∈ r.entries ∧ .alpine ∈ r.families ∧ ∃ q ∈ before, q.closes = true) ∧
    r'.lookup "my-card" = some (.make "my-card" card) ∧ .alpine ∈ r'.families ∧
    r'.lookup "my-panel" = r.lookup "my-panel" ∧
    r'.allows (.make "p" {}) "hx-get" = r.allows (.make "p" {}) "hx-get" := by
  intro card before after r r'
  have he : .make "my-card" card ∈ r.entries := by decide +kernel
  have hf : .alpine ∈ r.families := by decide +kernel
  have hclosed : ∃ q ∈ before, q.closes = true := ⟨.freeze, by simp [before], rfl⟩
  obtain ⟨hentries, hfamilies, -, hsame⟩ := lasting_serveAll true before after
  obtain ⟨hlookup, hallows⟩ := hsame hclosed
  exact ⟨⟨he, hf, hclosed⟩, hentries _ he, hfamilies _ hf, hlookup _, hallows _ _⟩

end Stencil.Schema.Registry
