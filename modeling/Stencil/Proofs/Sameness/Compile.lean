import Stencil.Proofs.Sameness.Passes

/-!
# Equal trees compile equally

Two trees that say the same fare the same: both are accepted or neither is, with the same words
about the same things in the same order; and if they are accepted, both have plans or neither has,
and the plans do the same, merged or not (`sameOutcome_of_same`). This follows from the passes over
bare trees, because trees that say the same are one tree when they are bare.
-/

namespace Stencil

namespace Schema

/-- What a violation says, wherever it is. -/
def Violation.words (v : Violation) : String × String × String :=
  (v.kind, v.description, v.hint)

theorem Violation.words_bare (v : Violation) : v.bare.words = v.words := by
  rw [words, words, v.kind_bare, v.description_bare, v.hint_bare]

end Schema

/-- Both results are plans that do the same, or both are errors with one cause. -/
def SameResult : Except PlanError Plan → Except PlanError Plan → Prop
  | .ok p, .ok q => samePlan p q = true
  | .error e, .error e' => e.bare = e'.bare
  | _, _ => False

/-- Both trees are refused with the same words, or both are accepted and come to the same. -/
def SameOutcome :
    Except (List Schema.Violation) (List Node) → Except (List Schema.Violation) (List Node) → Prop
  | .error vs, .error ws => vs.map Schema.Violation.words = ws.map Schema.Violation.words
  | .ok t, .ok u =>
    SameResult (Generate.nodes t) (Generate.nodes u) ∧ SameResult (Plan.ofTree t) (Plan.ofTree u)
  | _, _ => False

theorem SameResult.of_bare {x y : Except PlanError Plan}
    (h : bareResult barePlan x = bareResult barePlan y) : SameResult x y := by
  cases x <;> cases y <;>
    simp only [bareResult, Except.ok.injEq, Except.error.injEq, reduceCtorEq] at h
  · exact h
  · exact samePlan_iff.mpr h

theorem Plan.ofTree_bare (tree : List Node) :
    Plan.ofTree (bareNodes true tree) = bareResult barePlan (Plan.ofTree tree) :=
  bareResult_bind (Generate.nodes_bare tree) fun plan => congrArg Except.ok plan.merge_bare

namespace Schema.Registry

variable (r : Registry)

/-- The words about a tree depend on the bare tree only. -/
theorem words_bare (nodes : List Node) :
    (r.violations (bareNodes false nodes)).map Violation.words =
      (r.violations nodes).map Violation.words := by
  rw [violations_bare, List.map_map]
  exact List.map_congr_left fun v _ => v.words_bare

/-- A tree that is accepted has the marks that its bare tree gets. -/
theorem check_bare {nodes : List Node} (h : r.violations nodes = []) :
    r.check nodes = .ok (r.mark nodes) ∧
      r.mark (bareNodes false nodes) = bareNodes true (r.mark nodes) :=
  ⟨r.check_of_nil h, r.mark_bare nodes (List.flatMap_eq_nil_iff.mp h)⟩

theorem sameOutcome_of_same {a b : List Node} (h : sameNodes a b = true) :
    SameOutcome (r.check a) (r.check b) := by
  have hbare := sameNodes_iff.mp h
  have hwords : (r.violations a).map Violation.words = (r.violations b).map Violation.words := by
    rw [← words_bare, ← words_bare r b, hbare]
  -- either both trees have violations, and in the same words, or none has
  by_cases ha : r.violations a = []
  · have hb : r.violations b = [] := by
      rw [ha] at hwords
      exact List.map_eq_nil_iff.mp hwords.symm
    obtain ⟨hchecka, hmarka⟩ := r.check_bare ha
    obtain ⟨hcheckb, hmarkb⟩ := r.check_bare hb
    have hmarks : bareNodes true (r.mark a) = bareNodes true (r.mark b) := by
      rw [← hmarka, ← hmarkb, hbare]
    rw [hchecka, hcheckb]
    constructor
    · apply SameResult.of_bare
      rw [← Generate.nodes_bare, ← Generate.nodes_bare, hmarks]
    · apply SameResult.of_bare
      rw [← Plan.ofTree_bare, ← Plan.ofTree_bare, hmarks]
  · have hb : r.violations b ≠ [] := by
      intro hb
      rw [hb] at hwords
      exact ha (List.map_eq_nil_iff.mp hwords)
    rw [r.check_of_ne_nil ha, r.check_of_ne_nil hb]
    exact hwords

end Schema.Registry

/-- **Equal trees compile equally.** Being the same is an equivalence of expressions, values,
attributes, nodes and trees, and of plans; and whatever registry two trees that are the same are
checked against, they are refused with the same words in the same order or both accepted, and then
both have plans or neither has, and the plans are the same, as they were generated and merged. -/
theorem same_compiles :
    (Equivalence fun a b : Expr => a.same b = true) ∧
    (Equivalence fun a b : Content => a.same b = true) ∧
    (Equivalence fun a b : Attribute => a.same b = true) ∧
    (Equivalence fun a b : Node => a.same b = true) ∧
    (Equivalence fun a b : List Node => sameNodes a b = true) ∧
    (Equivalence fun p q : Plan => samePlan p q = true) ∧
    ∀ (r : Schema.Registry) (a b : List Node), sameNodes a b = true →
      SameOutcome (r.check a) (r.check b) :=
  ⟨equivalence_of_iff Expr.same_iff, equivalence_of_iff Content.same_iff,
    equivalence_of_iff Attribute.same_iff, equivalence_of_iff Node.same_iff,
    sameNodes_equivalence, equivalence_of_iff samePlan_iff,
    fun r _ _ h => r.sameOutcome_of_same h⟩

set_option maxRecDepth 20000 in
theorem reads_n : Term.read? (Expr.codeText "n") = some (.name "n") := rfl

/-- A link with a line break in it, at a place and with or without marks. -/
def linkAt (place : Option Location) (void : Bool) : List Node :=
  [.element "a" [⟨"href", .dynamic ⟨"n", .name "n", place, reads_n⟩ false, place⟩]
    [.element "br" [] [] void place] void place]

theorem same_compiles_link :
    sameNodes (linkAt none false) (linkAt (some ⟨3, 7⟩) true) = true ∧
    (∃ t, Schema.Registry.builtin.check (linkAt none false) = .ok t) ∧
    SameOutcome (Schema.Registry.builtin.check (linkAt none false))
      (Schema.Registry.builtin.check (linkAt (some ⟨3, 7⟩) true)) := by
  have hsame : sameNodes (linkAt none false) (linkAt (some ⟨3, 7⟩) true) = true := by decide
  have hnil : Schema.Registry.builtin.violations (linkAt none false) = [] := by decide +kernel
  obtain ⟨-, -, -, -, -, -, hcompiles⟩ := same_compiles
  exact ⟨hsame, ⟨_, Schema.Registry.check_of_nil _ hnil⟩, hcompiles _ _ _ hsame⟩

end Stencil
