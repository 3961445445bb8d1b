import Stencil.Proofs.Order.Raw

/-!
# Translation is complete

Nothing that a template asks for is lost, done twice or done out of turn on the way to its plan. The
acts of the plan that an accepted tree is translated to are those of its nodes, one for one and in
document order; merging leaves some of them, each at most once and in the same order, with the
conditions of an `if` pruned.
-/

namespace Stencil.Plan

/-- **Acts follow the tree, and merging follows the acts.** -/
theorem acts_ofTree {r : Schema.Registry} {nodes tree : List Node} {plan : Plan}
    (hcheck : r.check nodes = .ok tree) (hplan : Generate.nodes tree = .ok plan) :
    acts plan = treeActs tree ∧ treeActs tree = treeActs nodes ∧
      ∃ merged, Plan.ofTree tree = .ok merged ∧
        (acts merged).Sublist ((treeActs tree).map Act.prune) := by
  obtain ⟨hsame, hvoid⟩ := Schema.Registry.acts_check hcheck
  have hacts : acts plan = treeActs tree := Generate.acts_nodes tree hvoid hplan
  refine ⟨hacts, hsame, plan.merge, ?_, ?_⟩
  · rw [ofTree, hplan]
    rfl
  · rw [← hacts]
    exact plan.acts_merge

/-- A loop with a void element and an attribute that may be missing, a branch that is decided and a
branch that is pruned, with a component in it. -/
def sections : Schema.Registry × Except CompileError Template :=
  Template.compile .builtin .maud
    "@for x in xs { input checked[x]; (x) } @if True { @raw(y) } @else { (z) }
     @if a { Card t=(b) { (c) } } @else if 0 { (d) } @else if 1 { (e) } @else { (f) }"
    "sections" false

/-- The tree asks for eleven acts, of which seven remain. -/
theorem acts_ofTree_sections : ∃ t plan, sections.2 = .ok t ∧ Generate.nodes t.tree = .ok plan ∧
    acts plan = treeActs t.tree ∧ (acts plan).length = 11 ∧
    (acts t.plan).Sublist ((treeActs t.tree).map Act.prune) ∧ (acts t.plan).length = 7 := by
  have hlengths : (sections.2.toOption.map fun t => ((treeActs t.tree).length,
      (acts t.plan).length)) = some (11, 7) := by
    decide +kernel
  rcases hsections : sections with ⟨r', e | t⟩
  · rw [hsections] at hlengths
    cases hlengths
  rw [hsections] at hlengths
  obtain ⟨htree, hmerged⟩ := Prod.mk.inj (Option.some.inj hlengths)
  obtain ⟨nodes, plan, -, hcheck, hplan, hmerge⟩ := Template.compile_eq_ok hsections
  obtain ⟨hacts, -, merged, hofTree, hsublist⟩ := acts_ofTree hcheck hplan
  rw [ofTree, hplan] at hofTree
  obtain rfl : plan.merge = merged := pure_eq_ok.mp hofTree
  refine ⟨t, plan, rfl, hplan, hacts, ?_, ?_, hmerged⟩
  · rw [hacts]
    exact htree
  · rw [hmerge]
    exact hsublist

end Stencil.Plan
