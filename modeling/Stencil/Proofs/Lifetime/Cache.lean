import Stencil.Proofs.Lifetime.Registry
import Stencil.Session

/-!
# Templates that are kept

A template that is given out again is the one that would be compiled now. This holds because the
first template that is kept closes the registry it was checked against, and a closed registry does
not change: in a coherent session (`Coherent`) every kept template is the compilation of its source
against the registry of the session. Every operation leaves a session coherent.
-/

namespace Stencil

open Schema

/-! ## Checks do not see that a registry is closed -/

namespace Schema.Registry

variable (r : Registry)

theorem violations_freeze (nodes : List Node) : r.freeze.violations nodes = r.violations nodes :=
  rfl

mutual

theorem markNode_freeze : ∀ n : Node, r.freeze.markNode n = r.markNode n
  | .element name attributes children void place => by
    rw [markNode, markNode, mark_freeze children]
    rfl
  | .component reference arguments children place => by
    rw [markNode, markNode, mark_freeze children]
  | .choice branches place => by rw [markNode, markNode, markBodies_freeze branches]
  | .each names source body place => by rw [markNode, markNode, mark_freeze body]
  | .cases subject arms place => by rw [markNode, markNode, markBodies_freeze arms]
  | .doctype .. | .text .. | .unknown .. => rfl

theorem mark_freeze : ∀ nodes : List Node, r.freeze.mark nodes = r.mark nodes
  | [] => rfl
  | n :: rest => by rw [mark, mark, markNode_freeze n, mark_freeze rest]

theorem markBodies_freeze : ∀ bodies : List (Option Expr × List Node),
    r.freeze.markBodies bodies = r.markBodies bodies
  | [] => rfl
  | (condition, body) :: rest => by
    rw [markBodies, markBodies, mark_freeze body, markBodies_freeze rest]

end

theorem check_freeze (nodes : List Node) : r.freeze.check nodes = r.check nodes := by
  rw [check, check, violations_freeze, mark_freeze]

end Schema.Registry

/-! ## Compilations -/

namespace Template

variable {r r' : Registry} {dialect : Dialect} {source name : String} {verbose : Bool}

/-- A registry after a compilation: what it is after the check of the tree, if there is one. -/
theorem compile_fst (r : Registry) (dialect : Dialect) (source name : String) (verbose : Bool) :
    (compile r dialect source name verbose).1 = match Source.read dialect source with
      | .error _ => r
      | .ok nodes => (r.validate nodes).1 := by
  rw [compile]
  cases Source.read dialect source with
  | error e => rfl
  | ok nodes =>
    dsimp only
    cases r.check nodes with
    | error violations => rfl
    | ok tree =>
      dsimp only
      cases Plan.ofTree tree <;> rfl

theorem steps_compile (r : Registry) (dialect : Dialect) (source name : String) (verbose : Bool) :
    r.Steps (compile r dialect source name verbose).1 := by
  rw [compile_fst]
  cases Source.read dialect source with
  | error e => exact .refl r
  | ok nodes => exact Registry.steps_serve r (.validate nodes)

/-- Against the registry that a compiled template leaves, the source is compiled to the same. -/
theorem compile_again {t : Template} (h : compile r dialect source name verbose = (r', .ok t)) :
    r' = r.freeze ∧ compile r' dialect source name verbose = (r', .ok t) := by
  rw [compile] at h
  cases hread : Source.read dialect source with
  | error e => rw [hread] at h; cases h
  | ok nodes =>
    rw [hread] at h
    cases hcheck : r.check nodes with
    | error violations => simp only [hcheck] at h; cases h
    | ok tree =>
      simp only [hcheck] at h
      cases hplan : Plan.ofTree tree with
      | error e => rw [hplan] at h; cases h
      | ok plan =>
        rw [hplan] at h
        cases h
        refine ⟨rfl, ?_⟩
        simp only [compile, hread, Registry.check_freeze, hcheck, hplan]
        rfl

end Template

namespace Session

variable {s s' : Session}

/-- A compilation in a session is one against its registry; nothing is kept of it. -/
theorem compileWith_eq (s : Session) (dialect : Dialect) (source : String) (o : Options) :
    let built := s.compileWith s.registry none dialect source o
    Template.compile s.registry dialect source (o.name.getD Template.anonymous)
      (o.verbose.getD false) = (built.1.registry, built.2.map Compiled.template) ∧
    built.1.cache = s.cache := by
  rw [compileWith]
  rcases Template.compile s.registry dialect source (o.name.getD Template.anonymous)
    (o.verbose.getD false) with ⟨r, _ | _⟩
  all_goals exact ⟨rfl, rfl⟩

theorem steps_compileWith (s : Session) (dialect : Dialect) (source : String) (o : Options) :
    s.registry.Steps (s.compileWith s.registry none dialect source o).1.registry := by
  have h := Template.steps_compile s.registry dialect source (o.name.getD Template.anonymous)
    (o.verbose.getD false)
  rwa [(compileWith_eq s dialect source o).1] at h

theorem eq_empty_of_isEmpty {o : Options} (h : o.isEmpty = true) : o = {} := by
  obtain ⟨_ | _, _ | _⟩ := o
  · rfl
  all_goals cases h

/-! ## Coherence -/

/-- What is kept for a source is what compiling it now gives, and does not change the registry. -/
def IsCurrent (s : Session) (entry : (Dialect × String) × (Mark × Template)) : Prop :=
  Template.compile s.registry entry.1.1 entry.1.2 Template.anonymous false =
    (s.registry, .ok entry.2.2)

/-- Templates are kept only of a registry in use, and they are as they would be compiled now. -/
structure Coherent (s : Session) : Prop where
  frozen : s.cache ≠ [] → s.registry.frozen = true
  current : ∀ entry ∈ s.cache, s.IsCurrent entry

theorem coherent_of_empty (h : s.cache = []) : s.Coherent :=
  ⟨fun hne => absurd h hne, fun _ hentry => absurd hentry (h ▸ List.not_mem_nil)⟩

/-- While templates are kept, the registry stays as it is. -/
theorem Coherent.registry_eq (hs : s.Coherent) (hsteps : s.registry.Steps s'.registry)
    (hne : s.cache ≠ []) : s'.registry = s.registry :=
  hsteps.eq_of_frozen (hs.frozen hne)

theorem Coherent.of_steps (hs : s.Coherent) (hcache : s'.cache = s.cache)
    (hsteps : s.registry.Steps s'.registry) : s'.Coherent := by
  by_cases hne : s.cache = []
  · exact coherent_of_empty (hcache.trans hne)
  · have hregistry := hs.registry_eq hsteps hne
    refine ⟨fun _ => hregistry ▸ hs.frozen hne, fun entry hentry => ?_⟩
    rw [IsCurrent, hregistry]
    exact hs.current entry (hcache ▸ hentry)

theorem coherent_compileWith (hs : s.Coherent) (dialect : Dialect) (source : String)
    (o : Options) : (s.compileWith s.registry none dialect source o).1.Coherent :=
  hs.of_steps (compileWith_eq s dialect source o).2 (steps_compileWith s dialect source o)

/-! ## Giving out -/

/-- What `obtain` does: the template that was kept is given out, or one is compiled, and kept if it
may be. -/
theorem obtain_cases (s : Session) (dialect : Dialect) (source : String) (o : Options) :
    (∃ mark t, o = {} ∧ ((dialect, source), (mark, t)) ∈ s.cache ∧
      s.obtain dialect source o = (s, .ok ⟨mark, t, ""⟩)) ∨
    (∃ s' c, o = {} ∧ s.compileWith s.registry none dialect source {} = (s', .ok c) ∧
      s.obtain dialect source o =
        ({ s' with cache := ((dialect, source), (c.mark, c.template)) :: s'.cache }, .ok c)) ∨
    s.obtain dialect source o = s.compileWith s.registry none dialect source o := by
  rw [obtain]
  -- only what is compiled without options is kept, so there is nothing else to look up
  by_cases hkeep : (s.caching && o.isEmpty) = true
  · rw [if_pos hkeep]
    obtain rfl : o = {} := eq_empty_of_isEmpty (Bool.and_eq_true_iff.mp hkeep).2
    cases hfound : s.cache.lookup (dialect, source) with
    | some kept =>
      obtain ⟨before, after, hcache, -⟩ := List.lookup_eq_some_iff.mp hfound
      refine .inl ⟨kept.1, kept.2, rfl, ?_, rfl⟩
      exact hcache ▸ List.mem_append_right before (List.mem_cons_self ..)
    | none =>
      rcases hbuilt : s.compileWith s.registry none dialect source {} with ⟨s', e | c⟩
      · exact .inr (.inr rfl)
      · exact .inr (.inl ⟨s', c, rfl, rfl, rfl⟩)
  · rw [if_neg hkeep]
    exact .inr (.inr rfl)

theorem coherent_obtain (hs : s.Coherent) (dialect : Dialect) (source : String) (o : Options) :
    (s.obtain dialect source o).1.Coherent := by
  rcases obtain_cases s dialect source o with
    ⟨mark, t, -, -, h⟩ | ⟨s', c, rfl, hbuilt, h⟩ | h
  · rw [h]
    exact hs
  · have hcompile := (compileWith_eq s dialect source {}).1
    rw [hbuilt] at hcompile
    obtain ⟨hclosed, hcurrent⟩ := Template.compile_again hcompile
    have hs' : s'.Coherent := by
      have := coherent_compileWith hs dialect source {}
      rwa [hbuilt] at this
    rw [h]
    refine ⟨fun _ => congrArg Registry.frozen hclosed, List.forall_mem_cons.mpr ⟨hcurrent, ?_⟩⟩
    exact hs'.current
  · rw [h]
    exact coherent_compileWith hs dialect source o

theorem coherent_after (hs : s.Coherent) (op : Operation) : (s.after op).Coherent := by
  cases op with
  | request q => exact hs.of_steps rfl (Registry.steps_serve s.registry q)
  | compile dialect source o => exact coherent_compileWith hs dialect source o
  | obtain dialect source o => exact coherent_obtain hs dialect source o
  | setCaching on => exact hs.of_steps rfl (.refl _)
  | setDebug on => exact hs.of_steps rfl (.refl _)

theorem coherent_afterAll (hs : s.Coherent) (operations : List Operation) :
    (s.afterAll operations).Coherent := by
  induction operations generalizing s with
  | nil => exact hs
  | cons op rest ih => exact ih (coherent_after hs op)

/-- What is given out in a coherent session is what would be compiled, kept or not. -/
theorem Coherent.obtain_eq (hs : s.Coherent) (dialect : Dialect) (source : String) :
    let given := s.obtain dialect source {}
    (given.1.registry, given.2.map Compiled.template) =
      Template.compile s.registry dialect source Template.anonymous false := by
  have hcompile := (compileWith_eq s dialect source {}).1
  rcases obtain_cases s dialect source {} with
    ⟨mark, t, -, hkept, h⟩ | ⟨s', c, -, hbuilt, h⟩ | h
  · rw [h]
    exact (hs.current _ hkept).symm
  · rw [hbuilt] at hcompile
    rw [h]
    exact hcompile.symm
  · rw [h]
    exact hcompile.symm

theorem cache_obtain_error {dialect : Dialect} {source : String} {o : Options} {e : CompileError}
    (h : (s.obtain dialect source o).2 = .error e) :
    (s.obtain dialect source o).1.cache = s.cache := by
  rcases obtain_cases s dialect source o with
    ⟨mark, t, -, -, hgiven⟩ | ⟨s', c, -, -, hgiven⟩ | hgiven
  · rw [hgiven]
  · rw [hgiven] at h
    cases h
  · rw [hgiven]
    exact (compileWith_eq s dialect source o).2

/-- **Nobody can tell that templates are kept.** After any operations, a template that is asked for
is the one that would be compiled now, and so are its errors and the registry it leaves; and
templates are kept only of a registry in use, as they would be compiled now, and none of a
compilation that failed. -/
theorem obtain_afterAll (operations : List Operation) :
    let s := ({} : Session).afterAll operations
    (s.cache ≠ [] → s.registry.frozen = true) ∧
    (∀ entry ∈ s.cache, Template.compile s.registry entry.1.1 entry.1.2 Template.anonymous false =
      (s.registry, .ok entry.2.2)) ∧
    ∀ dialect source,
      let given := s.obtain dialect source {}
      let built := s.compileWith s.registry none dialect source {}
      given.1.registry = built.1.registry ∧
      given.2.map Compiled.template = built.2.map Compiled.template ∧
      ∀ o e, (s.obtain dialect source o).2 = .error e →
        (s.obtain dialect source o).1.cache = s.cache := by
  intro s
  have hs : s.Coherent := coherent_afterAll (coherent_of_empty rfl) operations
  refine ⟨hs.frozen, hs.current, fun dialect source => ?_⟩
  have hsame := (hs.obtain_eq dialect source).trans (compileWith_eq s dialect source {}).1
  obtain ⟨hregistry, htemplate⟩ := Prod.mk.inj hsame
  exact ⟨hregistry, htemplate, fun _ _ => cache_obtain_error⟩

/-- A template is kept, an extension is refused after it, and the template is given out again. -/
theorem obtain_afterAll_paragraph :
    let operations : List Operation := [
      .request (.enable ["htmx"]), .obtain .rsx "<p hx-get={x}/>" {},
      .request (.register "my-card" {}), .setCaching false, .setCaching true]
    let s := ({} : Session).afterAll operations
    (s.cache ≠ [] ∧ s.caching = true) ∧ s.registry.frozen = true ∧
    (s.obtain .rsx "<p hx-get={x}/>" {}).2.map Compiled.template =
      (s.compileWith s.registry none .rsx "<p hx-get={x}/>" {}).2.map Compiled.template := by
  intro operations s
  have hkept : s.cache ≠ [] := List.isEmpty_eq_false_iff.mp (by decide +kernel)
  obtain ⟨hfrozen, -, hsame⟩ := obtain_afterAll operations
  obtain ⟨-, htemplate, -⟩ := hsame .rsx "<p hx-get={x}/>"
  exact ⟨⟨hkept, by decide +kernel⟩, hfrozen hkept, htemplate⟩

end Session

end Stencil
