import Stencil.Proofs.Lifetime.Registry

/-!
# What a refused request leaves

One element and the acceptance of custom elements are checked before anything is changed, and a
registry in use changes nothing. A request with several names takes them one after the other, so
what it leaves when it is refused is the registry with the names before the refused one: it is the
same registry only if they brought nothing.

**Theorem (`refused_serve`).** This holds of every registry and of every request that it refuses.
-/

namespace Stencil.Schema.Registry

variable {r r' : Registry} {settings : Settings} {name : String} {names : List String}
  {e : ChangeError}

/-! ## One element -/

theorem register_of_frozen (h : r.frozen = true) (settings : Settings) (name : String) :
    r.register name settings = .error (.frozen (.register name)) := by
  rw [register, checkOpen_of_frozen h]
  rfl

theorem register_of_open (h : r.frozen = false) (settings : Settings)
    (hname : r.stored? name = none) : r.register name settings =
      .ok ({ r with entries := r.entries ++ [.make name settings] }, .make name settings) := by
  rw [register, checkOpen_of_open h, hname]
  rfl

theorem register_of_taken (h : r.frozen = false) (settings : Settings)
    (hname : (r.stored? name).isSome = true) :
    r.register name settings = .error (.duplicate name) := by
  rw [register, checkOpen_of_open h, hname]
  rfl

theorem register_eq_ok {made : Entry} (h : r.register name settings = .ok (r', made)) :
    r' = { r with entries := r.entries ++ [made] } := by
  cases hr : r.frozen with
  | true =>
    rw [register_of_frozen hr] at h
    cases h
  | false =>
    cases hname : r.stored? name with
    | some other =>
      rw [register_of_taken hr settings (by rw [hname]; rfl)] at h
      cases h
    | none =>
      rw [register_of_open hr settings hname] at h
      cases h
      rw [hr]

/-! ## Several elements -/

theorem define_cons_ok {made : Entry} (h : r.register name settings = .ok (r', made))
    (rest : List String) :
    r.define settings (name :: rest) =
      ((r'.define settings rest).1, (r'.define settings rest).2.map (made :: ·)) := by
  rw [define, h]

theorem define_cons_error (h : r.register name settings = .error e) (rest : List String) :
    r.define settings (name :: rest) = (r, .error e) := by
  rw [define, h]

theorem define_eq_ok {es : List Entry} (h : r.define settings names = (r', .ok es)) :
    r' = { r with entries := r.entries ++ es } ∧ es.length = names.length := by
  induction names generalizing r es with
  | nil =>
    cases h
    exact ⟨by rw [List.append_nil], rfl⟩
  | cons name rest ih =>
    cases hname : r.register name settings with
    | error refusal =>
      rw [define_cons_error hname] at h
      cases h
    | ok made =>
      obtain ⟨r₁, made⟩ := made
      rw [define_cons_ok hname] at h
      rcases hrest : r₁.define settings rest with ⟨r₂, refusal | es'⟩
      · rw [hrest] at h
        cases h
      · rw [hrest] at h
        cases h
        obtain ⟨rfl, hlength⟩ := ih hrest
        rw [register_eq_ok hname, List.append_assoc, List.length_cons, List.length_cons, hlength]
        exact ⟨rfl, rfl⟩

/-- What a refused list of names leaves is what the names before the refused one make. -/
theorem define_eq_error (h : r.define settings names = (r', .error e)) :
    ∃ done name rest es, names = done ++ name :: rest ∧ r.define settings done = (r', .ok es) ∧
      r'.register name settings = .error e := by
  induction names generalizing r with
  | nil => cases h
  | cons name rest ih =>
    -- either the first name is the one that is refused, or the rest has it
    cases hname : r.register name settings with
    | error refusal =>
      rw [define_cons_error hname] at h
      cases h
      exact ⟨[], name, rest, [], rfl, rfl, hname⟩
    | ok made =>
      obtain ⟨r₁, made⟩ := made
      rw [define_cons_ok hname] at h
      rcases hrest : r₁.define settings rest with ⟨r₂, refusal | es⟩
      · rw [hrest] at h
        cases h
        obtain ⟨done, last, after, es, rfl, hdone, hlast⟩ := ih hrest
        refine ⟨name :: done, last, after, made :: es, rfl, ?_, hlast⟩
        rw [define_cons_ok hname, hdone]
        rfl
      · rw [hrest] at h
        cases h

/-- Names that were all registered changed the registry, unless there were none. -/
theorem define_unchanged_iff {es : List Entry} (h : r.define settings names = (r', .ok es)) :
    r' = r ↔ names = [] := by
  obtain ⟨rfl, hlength⟩ := define_eq_ok h
  constructor
  · intro hsame
    have hentries : r.entries ++ es = r.entries := congrArg entries hsame
    rw [List.append_right_eq_self] at hentries
    rw [hentries] at hlength
    exact List.eq_nil_of_length_eq_zero hlength.symm
  · rintro rfl
    obtain rfl : es = [] := List.eq_nil_of_length_eq_zero hlength
    rw [List.append_nil]

/-! ## Families -/

theorem addFamilies_cons_some {f : Family} (h : Family.ofName? name = some f)
    (r : Registry) (rest : List String) :
    r.addFamilies (name :: rest) = (r.addFamily f).addFamilies rest := by
  rw [addFamilies, h]

theorem addFamilies_cons_none (h : Family.ofName? name = none) (r : Registry)
    (rest : List String) :
    r.addFamilies (name :: rest) = (r, .error (.unknownFamily name)) := by
  rw [addFamilies, h]

theorem addFamily_eq (r : Registry) (f : Family) :
    r.addFamily f = { r with families := (r.addFamily f).families } := by
  unfold addFamily
  split <;> rfl

theorem mem_addFamily {f g : Family} :
    g ∈ (r.addFamily f).families ↔ g = f ∨ g ∈ r.families := by
  unfold addFamily
  split
  · rename_i hmem
    have hf : f ∈ r.families := List.contains_iff_mem.mp hmem
    exact ⟨.inr, fun h => h.elim (fun hg => hg ▸ hf) id⟩
  · rw [List.mem_append, List.mem_singleton, or_comm]

theorem addFamily_of_mem {f : Family} (h : f ∈ r.families) : r.addFamily f = r :=
  if_pos (List.contains_iff_mem.mpr h)

/-- Enabling families changes nothing else. -/
theorem addFamilies_eq (r : Registry) (names : List String) :
    (r.addFamilies names).1 = { r with families := (r.addFamilies names).1.families } := by
  induction names generalizing r with
  | nil => rfl
  | cons name rest ih =>
    cases hname : Family.ofName? name with
    | none => rw [addFamilies_cons_none hname]
    | some f =>
      rw [addFamilies_cons_some hname]
      refine (ih (r.addFamily f)).trans ?_
      rw [addFamily_eq]

theorem mem_addFamilies (h : r.addFamilies names = (r', .ok ())) {g : Family} :
    g ∈ r'.families ↔ g ∈ r.families ∨ g ∈ names.filterMap Family.ofName? := by
  induction names generalizing r with
  | nil =>
    cases h
    exact (or_iff_left (List.not_mem_nil)).symm
  | cons name rest ih =>
    cases hname : Family.ofName? name with
    | none =>
      rw [addFamilies_cons_none hname] at h
      cases h
    | some f =>
      rw [addFamilies_cons_some hname] at h
      rw [ih h, mem_addFamily, List.filterMap_cons_some hname, List.mem_cons, or_assoc, or_left_comm]

theorem addFamilies_eq_error (h : r.addFamilies names = (r', .error e)) :
    ∃ done name rest, names = done ++ name :: rest ∧ r.addFamilies done = (r', .ok ()) ∧
      Family.ofName? name = none ∧ e = .unknownFamily name := by
  induction names generalizing r with
  | nil => cases h
  | cons name rest ih =>
    cases hname : Family.ofName? name with
    | none =>
      rw [addFamilies_cons_none hname] at h
      cases h
      exact ⟨[], name, rest, rfl, rfl, hname, rfl⟩
    | some f =>
      rw [addFamilies_cons_some hname] at h
      obtain ⟨done, last, after, rfl, hdone, hlast⟩ := ih h
      refine ⟨name :: done, last, after, rfl, ?_, hlast⟩
      rwa [addFamilies_cons_some hname]

theorem addFamilies_of_enabled (h : ∀ f ∈ names.filterMap Family.ofName?, f ∈ r.families) :
    (r.addFamilies names).1 = r := by
  induction names with
  | nil => rfl
  | cons name rest ih =>
    cases hname : Family.ofName? name with
    | none => rw [addFamilies_cons_none hname]
    | some f =>
      rw [List.filterMap_cons_some hname, List.forall_mem_cons] at h
      rw [addFamilies_cons_some hname, addFamily_of_mem h.1]
      exact ih h.2

/-- Families that were all enabled changed the registry, unless it had them. -/
theorem addFamilies_unchanged_iff (h : r.addFamilies names = (r', .ok ())) :
    r' = r ↔ ∀ f ∈ names.filterMap Family.ofName?, f ∈ r.families := by
  constructor
  · rintro rfl f hf
    exact (mem_addFamilies h).mpr (.inr hf)
  · intro hall
    have hsame := addFamilies_of_enabled hall
    rwa [h] at hsame

/-! ## Any request -/

theorem enable_of_open (h : r.frozen = false) (names : List String) :
    r.enable names = r.addFamilies names := by
  rw [enable, checkOpen_of_open h]

theorem serve_define (r : Registry) (settings : Settings) (names : List String) :
    r.serve (.define settings names) =
      ((r.define settings names).1, .ofChange .entries (r.define settings names).2) :=
  rfl

theorem serve_enable (r : Registry) (names : List String) :
    r.serve (.enable names) =
      ((r.enable names).1, .ofChange (fun _ => .done) (r.enable names).2) :=
  rfl

theorem serve_register_of_refused (h : r.serve (.register name settings) = (r', .refused e)) :
    r' = r := by
  rw [serve] at h
  cases hregister : r.register name settings <;> rw [hregister] at h <;> cases h
  rfl

theorem serve_allowCustom_of_refused (h : r.serve .allowCustom = (r', .refused e)) : r' = r := by
  rw [serve] at h
  cases hallow : r.allowCustom <;> rw [hallow] at h <;> cases h
  rfl

theorem serve_define_of_refused (h : r.serve (.define settings names) = (r', .refused e)) :
    ∃ done name rest es, names = done ++ name :: rest ∧
      r.serve (.define settings done) = (r', .entries es) ∧
      r'.serve (.register name settings) = (r', .refused e) ∧
      r' = { r with entries := r.entries ++ es } ∧ (r' = r ↔ done = []) := by
  rw [serve_define] at h
  rcases hdefine : r.define settings names with ⟨r₁, refusal | es⟩ <;> rw [hdefine] at h <;> cases h
  obtain ⟨done, name, rest, es, rfl, hdone, hname⟩ := define_eq_error hdefine
  refine ⟨done, name, rest, es, rfl, ?_, ?_, (define_eq_ok hdone).1, define_unchanged_iff hdone⟩
  · rw [serve_define, hdone]
    rfl
  · rw [serve, hname]

theorem serve_enable_of_refused (hopen : r.frozen = false)
    (h : r.serve (.enable names) = (r', .refused e)) :
    ∃ done name rest, names = done ++ name :: rest ∧
      r.serve (.enable done) = (r', .done) ∧
      r'.serve (.enable [name]) = (r', .refused e) ∧
      r' = { r with families := r'.families } ∧
      (r' = r ↔ ∀ f ∈ done.filterMap Family.ofName?, f ∈ r.families) := by
  rw [serve_enable, enable_of_open hopen] at h
  rcases henable : r.addFamilies names with ⟨r₁, refusal | _⟩ <;> rw [henable] at h <;> cases h
  obtain ⟨done, name, rest, rfl, hdone, hname, rfl⟩ := addFamilies_eq_error henable
  have hr₁ : r₁ = { r with families := r₁.families } := by
    have hsame := addFamilies_eq r done
    rwa [hdone] at hsame
  refine ⟨done, name, rest, rfl, ?_, ?_, hr₁, addFamilies_unchanged_iff hdone⟩
  · rw [serve_enable, enable_of_open hopen, hdone]
    rfl
  · have hstill : r₁.frozen = false := by
      rw [hr₁]
      exact hopen
    rw [serve_enable, enable_of_open hstill, addFamilies_cons_none hname]
    rfl

/-- **What a refused request leaves.** A registry in use is as it was, and so is every registry that
refuses a single element or the acceptance of custom elements. Of several names those before the
refused one stay, and nothing else is changed: elements that are registered one by one leave their
entries, and families that are enabled one by one leave those that were not there. -/
theorem refused_serve {q : Request} (h : r.serve q = (r', .refused e)) :
    (r.frozen = true → r' = r) ∧
    (r'.frozen = r.frozen ∧ r'.customElements = r.customElements) ∧
    (∀ name settings, q = .register name settings → r' = r) ∧
    (q = .allowCustom → r' = r) ∧
    (∀ settings names, q = .define settings names →
      ∃ done name rest es, names = done ++ name :: rest ∧
        r.serve (.define settings done) = (r', .entries es) ∧
        r'.serve (.register name settings) = (r', .refused e) ∧
        r' = { r with entries := r.entries ++ es } ∧ (r' = r ↔ done = [])) ∧
    (∀ names, q = .enable names → r.frozen = false →
      ∃ done name rest, names = done ++ name :: rest ∧
        r.serve (.enable done) = (r', .done) ∧
        r'.serve (.enable [name]) = (r', .refused e) ∧
        r' = { r with families := r'.families } ∧
        (r' = r ↔ ∀ f ∈ done.filterMap Family.ofName?, f ∈ r.families)) := by
  have hfrozen : r.frozen = true → r' = r := by
    intro hr
    have hsame := (steps_serve r q).eq_of_frozen hr
    rwa [h] at hsame
  refine ⟨hfrozen, ?_, ?_, ?_, ?_, ?_⟩
  · cases q with
    | register name settings => rw [serve_register_of_refused h]; exact ⟨rfl, rfl⟩
    | allowCustom => rw [serve_allowCustom_of_refused h]; exact ⟨rfl, rfl⟩
    | define settings names =>
      obtain ⟨done, name, rest, es, -, -, -, rfl, -⟩ := serve_define_of_refused h
      exact ⟨rfl, rfl⟩
    | enable names =>
      cases hr : r.frozen with
      | true => rw [hfrozen hr, hr]; exact ⟨rfl, rfl⟩
      | false =>
        obtain ⟨done, name, rest, -, -, -, hr', -⟩ := serve_enable_of_refused hr h
        rw [hr', hr]
        exact ⟨rfl, rfl⟩
    | validate nodes =>
      rw [serve] at h
      rcases hcheck : (r.validate nodes) with ⟨r₁, violations | nodes'⟩ <;>
        rw [hcheck] at h <;> cases h
    | _ => cases h
  · rintro name settings rfl
    exact serve_register_of_refused h
  · rintro rfl
    exact serve_allowCustom_of_refused h
  · rintro settings names rfl
    exact serve_define_of_refused h
  · rintro names rfl hr
    exact serve_enable_of_refused hr h

/-- What `my-card` brings stays when `div`, an element of HTML, is refused. -/
theorem serve_define_card : (fresh true).serve (.define {} ["my-card", "div"]) =
    ({ builtin with entries := builtin.entries ++ [.make "my-card" {}] },
      .refused (.duplicate "div")) := by
  have hcard : builtin.stored? "my-card" = none := by decide +kernel
  have hdiv : (builtin.stored? "div").isSome = true := by decide +kernel
  have hregister := register_of_open rfl {} hcard
  rw [serve_define, fresh, define_cons_ok hregister, define_cons_error (register_of_taken rfl {} ?_)]
  · rfl
  · rw [stored?, List.find?_append]
    exact Option.isSome_or.trans (by rw [← stored?, hdiv, Bool.true_or])

/-- What `htmx` brings stays when an unknown family is refused. -/
theorem serve_enable_htmx : (fresh true).serve (.enable ["htmx", "none"]) =
    ({ builtin with families := [.htmx] }, .refused (.unknownFamily "none")) := by
  have hhtmx : Family.ofName? "htmx" = some .htmx := by decide
  have hnone : Family.ofName? "none" = none := by decide
  rw [serve_enable, fresh, enable_of_open rfl, addFamilies_cons_some hhtmx,
    addFamilies_cons_none hnone]
  rfl

/-- An element of two, and a family of two. -/
theorem refused_serve_lists :
    (∃ done es, (fresh true).serve (.define {} done) =
        ({ builtin with entries := builtin.entries ++ [.make "my-card" {}] }, .entries es) ∧
      ∃ name rest, ["my-card", "div"] = done ++ name :: rest) ∧
    ∃ done, (fresh true).serve (.enable done) =
        ({ builtin with families := [.htmx] }, .done) ∧
      ∃ name rest, ["htmx", "none"] = done ++ name :: rest := by
  obtain ⟨-, -, -, -, hdefine, -⟩ := refused_serve serve_define_card
  obtain ⟨-, -, -, -, -, henable⟩ := refused_serve serve_enable_htmx
  obtain ⟨done, name, rest, es, hnames, hdone, -⟩ := hdefine {} _ rfl
  obtain ⟨enabled, family, families, hfamilies, henabled, -⟩ := henable _ rfl rfl
  exact ⟨⟨done, es, hdone, name, rest, hnames⟩, enabled, henabled, family, families, hfamilies⟩

/-- **Not every refused request leaves the registry as it was.** -/
theorem refused_serve_changed :
    ((fresh true).serve (.define {} ["my-card", "div"])).2 = .refused (.duplicate "div") ∧
      ((fresh true).serve (.define {} ["my-card", "div"])).1 ≠ fresh true := by
  rw [serve_define_card]
  refine ⟨rfl, fun hsame => ?_⟩
  have hentries : builtin.entries ++ [.make "my-card" {}] = builtin.entries :=
    congrArg entries hsame
  exact List.cons_ne_nil _ _ (List.append_right_eq_self.mp hentries)

end Stencil.Schema.Registry
