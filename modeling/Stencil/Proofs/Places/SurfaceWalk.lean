import Stencil.Source.Surface

/-!
# Surface nodes in the order of the source

A surface node is walked before the nodes that it holds. What is recognized is thereby one list of
surface nodes in the order in which they begin.
-/

namespace Stencil.Source.Surface

/-- The nodes that a surface node holds: its children, or those of its bodies one after the
other. -/
def held : Surface → List Surface
  | .group nodes => nodes
  | .choice _ branches last => branches.flatMap Prod.snd ++ last.getD []
  | .each _ _ _ body => body
  | .cases _ _ arms => arms.flatMap Prod.snd
  | .element _ _ _ _ children _ => children
  | _ => []

theorem sizeOf_held {s t : Surface} (h : t ∈ s.held) : sizeOf t < sizeOf s := by
  have hbodies : ∀ {α : Type} [SizeOf α] (bodies : List (α × List Surface)),
      t ∈ bodies.flatMap Prod.snd → sizeOf t < sizeOf bodies := by
    intro α _ bodies ht
    obtain ⟨⟨guard, body⟩, hb, ht⟩ := List.mem_flatMap.mp ht
    have hbody := List.sizeOf_lt_of_mem hb
    have hnode := List.sizeOf_lt_of_mem ht
    simp only [Prod.mk.sizeOf_spec] at hbody
    dsimp only at hnode
    omega
  cases s with
  | group nodes =>
    have ht := List.sizeOf_lt_of_mem (show t ∈ nodes from h)
    simp only [group.sizeOf_spec]
    omega
  | choice offset branches last =>
    simp only [choice.sizeOf_spec]
    rcases List.mem_append.mp h with h | h
    · have ht := hbodies branches h
      omega
    · cases last with
      | none => cases h
      | some body =>
        have ht := List.sizeOf_lt_of_mem (show t ∈ body from h)
        simp only [Option.some.sizeOf_spec]
        omega
  | each offset names items body =>
    have ht := List.sizeOf_lt_of_mem (show t ∈ body from h)
    simp only [each.sizeOf_spec]
    omega
  | cases offset subject arms =>
    have ht := hbodies arms h
    simp only [cases.sizeOf_spec]
    omega
  | element offset name shorthands attributes children closing =>
    have ht := List.sizeOf_lt_of_mem (show t ∈ children from h)
    simp only [element.sizeOf_spec]
    omega
  | _ => cases h

theorem forall_mem_bodies {α : Type} {P : Surface → Prop} {bodies : List (α × List Surface)} :
    (∀ t ∈ bodies.flatMap Prod.snd, P t) ↔ ∀ b ∈ bodies, ∀ t ∈ b.2, P t := by
  simp only [List.mem_flatMap]
  exact ⟨fun h b hb t ht => h t ⟨b, hb, ht⟩, fun h t ⟨b, hb, ht⟩ => h b hb t ht⟩

theorem forall_mem_branches {P : Surface → Prop} {branches : List (Lexeme × List Surface)}
    {last : Option (List Surface)} : (∀ t ∈ branches.flatMap Prod.snd ++ last.getD [], P t) ↔
      (∀ b ∈ branches, ∀ t ∈ b.2, P t) ∧ ∀ body ∈ last, ∀ t ∈ body, P t := by
  rw [List.forall_mem_append, forall_mem_bodies]
  cases last with
  | none => simp
  | some body => simp

/-- A surface node and everything below it. -/
def walk (s : Surface) : List Surface :=
  s :: s.held.attach.flatMap fun t => t.1.walk
termination_by sizeOf s
decreasing_by exact sizeOf_held t.2

/-- A surface node is walked before what it holds. -/
theorem walk_eq (s : Surface) : s.walk = s :: s.held.flatMap walk := by
  rw [walk, List.flatMap_subtype (g := walk) (by simp), List.unattach_attach]

/-- What holds of a surface node whenever it holds of all the nodes in it, holds of every one. -/
theorem induction_held {P : Surface → Prop} (step : ∀ s : Surface, (∀ t ∈ s.held, P t) → P s)
    (s : Surface) : P s :=
  step s fun t _ => induction_held step t
termination_by sizeOf s
decreasing_by exact sizeOf_held ‹_›

/-- What passes on to the nodes that a surface node holds, passes on to all below it. -/
theorem forall_walk {P : Surface → Prop} (hheld : ∀ s, P s → ∀ t ∈ s.held, P t) {s : Surface}
    (hs : P s) : ∀ t ∈ s.walk, P t := by
  induction s using induction_held with
  | step s ih =>
    rw [walk_eq]
    refine List.forall_mem_cons.mpr ⟨hs, fun t ht => ?_⟩
    obtain ⟨u, hu, ht⟩ := List.mem_flatMap.mp ht
    exact ih u hu (hheld s hs u hu) t ht

/-- What passes on to held nodes and holds of a list of nodes, holds of all below these. -/
theorem forall_mem_walk {P : Surface → Prop} (hheld : ∀ s, P s → ∀ t ∈ s.held, P t)
    {nodes : List Surface} (hnodes : ∀ s ∈ nodes, P s) : ∀ t ∈ nodes.flatMap walk, P t := by
  intro t ht
  obtain ⟨s, hs, ht⟩ := List.mem_flatMap.mp ht
  exact forall_walk hheld (hnodes s hs) t ht

end Stencil.Source.Surface
