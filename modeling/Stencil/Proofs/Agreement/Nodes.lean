import Stencil.Proofs.Agreement.Controls

/-!
# Spelled nodes side by side

If a dialect reads single nodes as they were spelled, given that it does so with the nodes in them,
then it reads whole trees as they were spelled, however deep.
-/

namespace Stencil

/-! ## Nodes in nodes -/

theorem canBeSpelled_of_mem {ns : List Node} (h : NodesCanBeSpelled ns) :
    ∀ n ∈ ns, n.CanBeSpelled := by
  induction ns with
  | nil => exact List.forall_mem_nil _
  | cons n rest ih =>
    rw [NodesCanBeSpelled] at h
    exact List.forall_mem_cons.mpr ⟨h.1, ih h.2.2⟩

theorem canBeSpelled_branches {first : Bool} {branches : List (Option Expr × List Node)}
    (h : BranchesCanBeSpelled first branches) : ∀ b ∈ branches, NodesCanBeSpelled b.2 := by
  induction branches generalizing first with
  | nil => exact List.forall_mem_nil _
  | cons b rest ih =>
    rcases b with ⟨_ | e, body⟩ <;> rw [BranchesCanBeSpelled] at h
    · obtain ⟨-, hbody, rfl⟩ := h
      exact List.forall_mem_singleton.mpr hbody
    · exact List.forall_mem_cons.mpr ⟨h.2.1, ih h.2.2⟩

theorem canBeSpelled_arms {arms : List (Option Expr × List Node)} (h : ArmsCanBeSpelled arms) :
    ∀ a ∈ arms, NodesCanBeSpelled a.2 := by
  induction arms with
  | nil => exact List.forall_mem_nil _
  | cons a rest ih =>
    rcases a with ⟨_ | e, body⟩ <;> rw [ArmsCanBeSpelled] at h
    · exact List.forall_mem_cons.mpr ⟨h.1, ih h.2⟩
    · exact List.forall_mem_cons.mpr ⟨h.2.2.1, ih h.2.2.2⟩

theorem Node.canBeSpelled_lists {n : Node} (h : n.CanBeSpelled) :
    ∀ ns ∈ n.lists, NodesCanBeSpelled ns := by
  cases n with
  | element name attributes children void place =>
    rw [Node.CanBeSpelled] at h
    exact List.forall_mem_singleton.mpr h.2.2
  | component reference arguments children place =>
    rw [Node.CanBeSpelled] at h
    exact List.forall_mem_singleton.mpr h.2.2
  | choice branches place =>
    rw [Node.CanBeSpelled] at h
    exact List.forall_mem_map.mpr (canBeSpelled_branches h)
  | each names e body place =>
    rw [Node.CanBeSpelled] at h
    exact List.forall_mem_singleton.mpr h.2.2.2
  | cases e arms place =>
    rw [Node.CanBeSpelled] at h
    exact List.forall_mem_map.mpr (canBeSpelled_arms h.2)
  | text | doctype | unknown => exact List.forall_mem_nil _

namespace Spell

variable {d : Dialect}

theorem length_guarded (first : Bool) {branches : List (Option Expr × List Node)} :
    ∀ b ∈ branches, (nodes d b.2).length < (guarded d first branches).length := by
  induction branches generalizing first with
  | nil => exact List.forall_mem_nil _
  | cons b rest ih =>
    obtain ⟨condition, body⟩ := b
    have hlength : (guarded d first ((condition, body) :: rest)).length =
        (opening first condition).length + ((nodes d body).length + 2) +
          (guarded d false rest).length := by
      rw [guarded_cons]
      simp only [block, List.length_append, List.length_cons, List.length_nil]
      omega
    rw [hlength]
    refine List.forall_mem_cons.mpr ⟨by dsimp only; omega, fun b hb => ?_⟩
    exact Nat.lt_of_lt_of_le (ih false b hb) (Nat.le_add_left _ _)

theorem length_cases {arms : List (Option Expr × List Node)} :
    ∀ a ∈ arms, (nodes d a.2).length < (cases d arms).length := by
  induction arms with
  | nil => exact List.forall_mem_nil _
  | cons a rest ih =>
    obtain ⟨pattern, body⟩ := a
    have hlength : (nodes d body).length + (cases d rest).length <
        (cases d ((pattern, body) :: rest)).length := by
      have harm : (nodes d body).length + 2 ≤ (arm pattern (nodes d body)).length := by
        simp only [arm, block, List.length_append, List.length_cons, List.length_nil]
        omega
      cases rest with
      | nil =>
        show (nodes d body).length + 0 < (arm pattern (nodes d body)).length
        omega
      | cons a rest =>
        rw [cases_cons, List.length_append, List.length_cons]
        omega
    refine List.forall_mem_cons.mpr ⟨by dsimp only; omega, fun a ha => ?_⟩
    have hrest := ih a ha
    omega

/-- The nodes in a node are spelled with fewer characters. -/
theorem length_lists {n : Node} : ∀ ns ∈ n.lists, (nodes d ns).length < (node d n).length := by
  have htagged (name : List Char) (arguments : List Attribute) (inside : List Char) :
      inside.length < (tagged d name arguments inside).length := by
    cases d <;> simp only [tagged, block, List.length_append, List.length_cons] <;> omega
  cases n with
  | element name attributes children void place =>
    exact List.forall_mem_singleton.mpr (htagged _ _ _)
  | component reference arguments children place =>
    exact List.forall_mem_singleton.mpr (htagged _ _ _)
  | choice branches place =>
    exact List.forall_mem_map.mpr (length_guarded true)
  | each names e body place =>
    refine List.forall_mem_singleton.mpr ?_
    rw [node_each]
    simp only [block, List.length_append, List.length_cons]
    omega
  | cases e arms place =>
    refine List.forall_mem_map.mpr fun a ha => ?_
    have hlength := length_cases (d := d) a ha
    rw [node_cases]
    simp only [block, List.length_append, List.length_cons]
    omega
  | text | doctype | unknown => exact List.forall_mem_nil _

theorem node_ne_nil {n : Node} (h : n.CanBeSpelled) : node d n ≠ [] := by
  have htagged (name : List Char) (arguments : List Attribute) (inside : List Char) :
      tagged d name arguments inside ≠ [] := by
    cases d <;> simp [tagged]
  cases n with
  | element => exact htagged _ _ _
  | component => exact htagged _ _ _
  | text content place =>
    obtain ⟨s, rfl⟩ | ⟨e, raw, rfl, -⟩ := Node.text_canBeSpelled h
    · exact List.cons_ne_nil _ _
    · cases raw <;> cases d <;> exact List.cons_ne_nil _ _
  | doctype => cases d <;> exact List.cons_ne_nil _ _
  | choice branches place =>
    rw [Node.CanBeSpelled] at h
    rcases branches with _ | ⟨⟨_ | e, body⟩, rest⟩
    · simp [BranchesCanBeSpelled] at h
    · simp [BranchesCanBeSpelled] at h
    · exact List.cons_ne_nil _ _
  | each => exact List.cons_ne_nil _ _
  | cases => exact List.cons_ne_nil _ _
  | unknown => exact h.elim

theorem nodes_single (n : Node) : nodes d [n] = node d n :=
  rfl

theorem length_node_le {n : Node} {ns : List Node} (h : n ∈ ns) :
    (node d n).length ≤ (nodes d ns).length := by
  induction ns with
  | nil => cases h
  | cons m rest ih =>
    cases rest with
    | nil =>
      rw [List.mem_singleton.mp h, nodes_single]
    | cons k rest =>
      rw [nodes_cons, List.length_append, List.length_append]
      rcases List.mem_cons.mp h with rfl | h
      · exact Nat.le_add_right _ _
      · have hrest := ih h
        omega

end Spell

namespace Source

open Matcher

/-! ## Whole trees -/

/-- The nodes are taken as they were spelled, wherever nodes may end. -/
def Inside (d : Dialect) (Closes : List Char → Prop) (inside : Matcher (List Surface))
    (ns : List Node) : Prop :=
  ∀ t, Closes t → inside.Takes (Spell.nodes d ns) t (Mean · ns)

/-- A dialect reads single nodes as they were spelled: `piece` matches a node and what separates it
from the next one, given a matcher of the nodes in it; `within` matches nodes that nest so deep; and
`Closes` says what may stand behind the last node. -/
structure ReadsNodes (d : Dialect) (piece : Matcher (List Surface) → Matcher Surface)
    (within : Nat → Matcher (List Surface)) (Closes : List Char → Prop) : Prop where
  within_succ : ∀ n, within (n + 1) = many (piece (within n))
  ends : ∀ {inside t}, Closes t → t = [] ∨ (piece inside).Refuses t
  piece : ∀ {inside : Matcher (List Surface)} {n : Node}, n.CanBeSpelled →
    (∀ ns ∈ n.lists, Inside d Closes inside ns) →
      (∀ t, Closes t → (piece inside).Takes (Spell.node d n) t (·.Means n)) ∧
        ∀ m t, m.CanBeSpelled →
          (piece inside).Takes (Spell.node d n ++ Spell.gap d) (Spell.node d m ++ t) (·.Means n)

variable {d : Dialect} {piece : Matcher (List Surface) → Matcher Surface}
  {within : Nat → Matcher (List Surface)} {Closes : List Char → Prop}

theorem nodes_head (n : Node) (rest : List Node) :
    ∃ t, Spell.nodes d (n :: rest) = Spell.node d n ++ t := by
  cases rest with
  | nil => exact ⟨[], (List.append_nil _).symm⟩
  | cons m rest => exact ⟨_, Spell.nodes_cons d n m rest⟩

theorem ReadsNodes.takesAll (h : ReadsNodes d piece within Closes)
    {inside : Matcher (List Surface)} {ns : List Node} (hns : ∀ n ∈ ns, n.CanBeSpelled)
    (hlists : ∀ n ∈ ns, ∀ l ∈ n.lists, Inside d Closes inside l) {t : List Char} (ht : Closes t) :
    TakesAll (piece inside) Surface.Means (Spell.nodes d ns) t ns := by
  induction ns with
  | nil => exact .nil (h.ends ht)
  | cons n rest ih =>
    obtain ⟨hn, hrest⟩ := List.forall_mem_cons.mp hns
    obtain ⟨hl, hmore⟩ := List.forall_mem_cons.mp hlists
    obtain ⟨hlast, hnext⟩ := h.piece hn hl
    -- a node is followed by the next one, behind a gap, or by the end
    cases rest with
    | nil =>
      have hpiece : (piece inside).Takes (Spell.node d n) ([] ++ t) (·.Means n) := hlast t ht
      rw [Spell.nodes_single, ← List.append_nil (Spell.node d n)]
      exact .cons (Spell.node_ne_nil hn) hpiece (.nil (h.ends ht))
    | cons m rest =>
      obtain ⟨u, hu⟩ := nodes_head (d := d) m rest
      have hpiece := hnext m (u ++ t) (hrest m (List.mem_cons_self ..))
      rw [← List.append_assoc, ← hu] at hpiece
      rw [Spell.nodes_cons, ← List.append_assoc]
      exact .cons (by simp [Spell.node_ne_nil hn]) hpiece (ih hrest hmore)

/-- **A dialect that reads single nodes as they were spelled reads whole trees so**, if it nests
deep enough. -/
theorem ReadsNodes.takes (h : ReadsNodes d piece within Closes) (depth : Nat) {ns : List Node}
    (hns : NodesCanBeSpelled ns) (hdepth : (Spell.nodes d ns).length < depth) {t : List Char}
    (ht : Closes t) : (within depth).Takes (Spell.nodes d ns) t (Mean · ns) := by
  induction depth generalizing ns t with
  | zero => cases hdepth
  | succ depth ih =>
    have hmem := canBeSpelled_of_mem hns
    have hlists : ∀ n ∈ ns, ∀ l ∈ n.lists, Inside d Closes (within depth) l := by
      intro n hn l hl t ht
      refine ih (Node.canBeSpelled_lists (hmem n hn) l hl) ?_ ht
      have hinside := Spell.length_lists (d := d) l hl
      have hwhole := Spell.length_node_le (d := d) hn
      omega
    rw [h.within_succ]
    exact (h.takesAll hmem hlists ht).many.mono fun surface hsurface =>
      mean_of_forall₂ hsurface (separated_of_canBeSpelled hns)

end Source

end Stencil
