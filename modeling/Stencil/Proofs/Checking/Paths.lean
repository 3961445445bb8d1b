import Mathlib.Data.List.Sort
import Stencil.Tree.Walk

/-!
# Nodes at their paths

A node of a tree is addressed by a path: its number in the list it stands in, after the numbers of
the nodes that hold it. A node holds its children or the nodes of all its bodies, one body after the
other, and a path comes before another in the document if it does so in the order of words.

Paths are a second view of a tree, beside the walk over it. The result (`exists_outline`) is that
both agree: the walk meets the nodes at all paths there are, in the order of the paths, each once.
-/

namespace Stencil

/-! ## Paths -/

/-- The nodes that a node holds: its children, or those of its bodies one after the other. -/
def Node.held : Node → List Node
  | .element _ _ children _ _ => children
  | .component _ _ children _ => children
  | .choice branches _ => branches.flatMap Prod.snd
  | .each _ _ body _ => body
  | .cases _ arms _ => arms.flatMap Prod.snd
  | _ => []

/-- The node that a path leads to from a node. -/
def Node.at? : Node → List Nat → Option Node
  | n, [] => some n
  | n, i :: path => n.held[i]?.bind fun m => m.at? path

/-- The node that a path leads to in a tree. No path to a node is empty. -/
def nodeAt? (nodes : List Node) : List Nat → Option Node
  | [] => none
  | i :: path => nodes[i]?.bind fun n => n.at? path

/-- The paths of a tree in document order. The walk over the tree meets the nodes at these paths,
one after the other. -/
structure Outlines (nodes : List Node) (paths : List (List Nat)) : Prop where
  ordered : paths.Pairwise (· < ·)
  mem_iff : ∀ path, path ∈ paths ↔ (nodeAt? nodes path).isSome
  nodes_eq : paths.map (nodeAt? nodes) = (walk nodes).map some

/-! ## What a node holds -/

theorem Node.sizeOf_held {m n : Node} (h : m ∈ n.held) : sizeOf m < sizeOf n := by
  have hbodies : ∀ bodies : List (Option Expr × List Node), m ∈ bodies.flatMap Prod.snd →
      sizeOf m < sizeOf bodies := by
    intro bodies hm
    obtain ⟨⟨condition, body⟩, hb, hm⟩ := List.mem_flatMap.mp hm
    have hbody := List.sizeOf_lt_of_mem hb
    have hnode := List.sizeOf_lt_of_mem hm
    simp only [Prod.mk.sizeOf_spec] at hbody
    dsimp only at hnode
    omega
  cases n with
  | element name attributes children void place =>
    have hm := List.sizeOf_lt_of_mem (show m ∈ children from h)
    simp only [Node.element.sizeOf_spec]
    omega
  | component reference arguments children place =>
    have hm := List.sizeOf_lt_of_mem (show m ∈ children from h)
    simp only [Node.component.sizeOf_spec]
    omega
  | choice branches place =>
    have hm := hbodies branches h
    simp only [Node.choice.sizeOf_spec]
    omega
  | each names source body place =>
    have hm := List.sizeOf_lt_of_mem (show m ∈ body from h)
    simp only [Node.each.sizeOf_spec]
    omega
  | cases subject arms place =>
    have hm := hbodies arms h
    simp only [Node.cases.sizeOf_spec]
    omega
  | text | doctype | unknown => cases h

/-- What holds of a node whenever it holds of all the nodes in it, holds of every node. -/
theorem Node.induction_held {P : Node → Prop} (step : ∀ n : Node, (∀ m ∈ n.held, P m) → P n)
    (n : Node) : P n :=
  step n fun m _ => Node.induction_held step m
termination_by sizeOf n
decreasing_by exact Node.sizeOf_held ‹_›

theorem walk_append (l k : List Node) : walk (l ++ k) = walk l ++ walk k := by
  induction l with
  | nil => simp [walk]
  | cons n rest ih => simp [walk, ih]

theorem walkBodies_eq (bodies : List (Option Expr × List Node)) :
    walkBodies bodies = walk (bodies.flatMap Prod.snd) := by
  induction bodies with
  | nil => simp [walkBodies, walk]
  | cons b rest ih => rw [walkBodies, ih, List.flatMap_cons, walk_append]

theorem mem_walk {m : Node} {nodes : List Node} : m ∈ walk nodes ↔ ∃ n ∈ nodes, m ∈ n.walk := by
  induction nodes with
  | nil => simp [walk]
  | cons n rest ih => simp [walk, ih]

theorem mem_walkBodies {m : Node} {bodies : List (Option Expr × List Node)} :
    m ∈ walkBodies bodies ↔ ∃ b ∈ bodies, m ∈ walk b.2 := by
  induction bodies with
  | nil => simp [walkBodies]
  | cons b rest ih => simp [walkBodies, ih]

/-- A node is walked before what it holds. -/
theorem Node.walk_eq (n : Node) : n.walk = n :: Stencil.walk n.held := by
  cases n with
  | element | component | each => rw [Node.walk, Node.held]
  | choice branches place => rw [Node.walk, Node.held, walkBodies_eq]
  | cases subject arms place => rw [Node.walk, Node.held, walkBodies_eq]
  | text | doctype | unknown => simp [Node.walk, Node.held, Stencil.walk]

/-! ## Paths into a list -/

theorem Node.at?_eq (n : Node) (i : Nat) (path : List Nat) :
    n.at? (i :: path) = nodeAt? n.held (i :: path) := by
  rw [Node.at?, nodeAt?]

theorem nodeAt?_first (n : Node) (rest : List Node) (path : List Nat) :
    nodeAt? (n :: rest) (0 :: path) = n.at? path := by
  simp [nodeAt?]

theorem nodeAt?_later (n : Node) (rest : List Node) (i : Nat) (path : List Nat) :
    nodeAt? (n :: rest) ((i + 1) :: path) = nodeAt? rest (i :: path) := by
  simp [nodeAt?]

/-- The path to the same node if one more node stands in front. -/
def laterPath : List Nat → List Nat
  | [] => []
  | i :: path => (i + 1) :: path

theorem Outlines.ne_nil {nodes : List Node} {paths : List (List Nat)} (h : Outlines nodes paths) :
    ∀ path ∈ paths, path ≠ [] := by
  intro path hpath
  have hsome := (h.mem_iff path).mp hpath
  rintro rfl
  cases hsome

theorem Outlines.nil : Outlines [] [] := by
  refine ⟨.nil, fun path => ?_, by simp [walk]⟩
  cases path <;> simp [nodeAt?]

theorem mem_map_laterPath {paths : List (List Nat)} (h : ∀ path ∈ paths, path ≠ [])
    (path : List Nat) :
    path ∈ paths.map laterPath ↔ ∃ i tail, i :: tail ∈ paths ∧ path = (i + 1) :: tail := by
  constructor
  · intro hpath
    obtain ⟨p, hp, rfl⟩ := List.mem_map.mp hpath
    obtain ⟨i, tail, rfl⟩ := List.exists_cons_of_ne_nil (h p hp)
    exact ⟨i, tail, hp, rfl⟩
  · rintro ⟨i, tail, hp, rfl⟩
    exact List.mem_map.mpr ⟨i :: tail, hp, rfl⟩

theorem laterPath_lt {p q : List Nat} (hq : q ≠ []) (h : p < q) : laterPath p < laterPath q := by
  obtain ⟨j, q, rfl⟩ := List.exists_cons_of_ne_nil hq
  cases p with
  | nil => exact List.nil_lt_cons _ _
  | cons i p =>
    rcases List.cons_lt_cons_iff.mp h with hij | ⟨rfl, hpq⟩
    · exact List.cons_lt_cons_iff.mpr (.inl (Nat.succ_lt_succ hij))
    · exact List.cons_lt_cons_iff.mpr (.inr ⟨rfl, hpq⟩)

namespace Outlines

variable {n : Node} {rest : List Node} {inner others : List (List Nat)}

theorem cons_ordered (hn : Outlines n.held inner) (hrest : Outlines rest others) :
    ([0] :: inner.map (0 :: ·) ++ others.map laterPath).Pairwise (· < ·) := by
  refine List.pairwise_append.mpr ⟨List.pairwise_cons.mpr ⟨?_, ?_⟩, ?_, ?_⟩
  · intro path hpath
    obtain ⟨p, hp, rfl⟩ := List.mem_map.mp hpath
    obtain ⟨i, p, rfl⟩ := List.exists_cons_of_ne_nil (hn.ne_nil p hp)
    exact List.cons_lt_cons_iff.mpr (.inr ⟨rfl, List.nil_lt_cons _ _⟩)
  · refine List.pairwise_map.mpr (hn.ordered.imp fun {p q} hpq => ?_)
    exact List.cons_lt_cons_iff.mpr (.inr ⟨rfl, hpq⟩)
  · refine List.pairwise_map.mpr (hrest.ordered.imp_of_mem fun {p q} _ hq hpq => ?_)
    exact laterPath_lt (hrest.ne_nil q hq) hpq
  · intro path hpath later hlater
    obtain ⟨j, q, -, rfl⟩ := (mem_map_laterPath hrest.ne_nil later).mp hlater
    have hzero : ∀ p : List Nat, 0 :: p < (j + 1) :: q :=
      fun p => List.cons_lt_cons_iff.mpr (.inl j.succ_pos)
    obtain rfl | hpath := List.mem_cons.mp hpath
    · exact hzero []
    · obtain ⟨p, -, rfl⟩ := List.mem_map.mp hpath
      exact hzero p

theorem cons_mem_iff (hn : Outlines n.held inner) (hrest : Outlines rest others)
    (path : List Nat) :
    path ∈ [0] :: inner.map (0 :: ·) ++ others.map laterPath ↔
      (nodeAt? (n :: rest) path).isSome := by
  rw [List.mem_append, mem_map_laterPath hrest.ne_nil, List.mem_cons, List.mem_map]
  rcases path with - | ⟨i | i, path⟩
  · simp [nodeAt?]
  · rw [nodeAt?_first]
    cases path with
    | nil => simp [Node.at?]
    | cons i path =>
      rw [Node.at?_eq, ← hn.mem_iff]
      simp
  · rw [nodeAt?_later, ← hrest.mem_iff]
    simp

theorem cons_nodes_eq (hn : Outlines n.held inner) (hrest : Outlines rest others) :
    ([0] :: inner.map (0 :: ·) ++ others.map laterPath).map (nodeAt? (n :: rest)) =
      (walk (n :: rest)).map some := by
  have hinner : (inner.map (0 :: ·)).map (nodeAt? (n :: rest)) = (walk n.held).map some := by
    rw [List.map_map, ← hn.nodes_eq]
    refine List.map_congr_left fun path hpath => ?_
    obtain ⟨i, path, rfl⟩ := List.exists_cons_of_ne_nil (hn.ne_nil path hpath)
    rw [Function.comp_apply, nodeAt?_first, Node.at?_eq]
  have hothers : (others.map laterPath).map (nodeAt? (n :: rest)) = (walk rest).map some := by
    rw [List.map_map, ← hrest.nodes_eq]
    refine List.map_congr_left fun path hpath => ?_
    obtain ⟨i, path, rfl⟩ := List.exists_cons_of_ne_nil (hrest.ne_nil path hpath)
    exact nodeAt?_later n rest i path
  rw [List.map_append, List.map_cons, hinner, hothers, walk, Node.walk_eq, nodeAt?_first]
  simp [Node.at?]

theorem cons (hn : Outlines n.held inner) (hrest : Outlines rest others) :
    Outlines (n :: rest) ([0] :: inner.map (0 :: ·) ++ others.map laterPath) :=
  ⟨hn.cons_ordered hrest, hn.cons_mem_iff hrest, hn.cons_nodes_eq hrest⟩

end Outlines

/-! ## The paths of a tree -/

theorem exists_outline_of_held (nodes : List Node)
    (h : ∀ n ∈ nodes, ∃ paths, Outlines n.held paths) : ∃ paths, Outlines nodes paths := by
  induction nodes with
  | nil => exact ⟨[], .nil⟩
  | cons n rest ih =>
    obtain ⟨inner, hn⟩ := h n List.mem_cons_self
    obtain ⟨others, hrest⟩ := ih fun m hm => h m (List.mem_cons_of_mem n hm)
    exact ⟨_, hn.cons hrest⟩

/-- **The walk is the document order.** The nodes at all paths of a tree, in the order of the
paths, are what the walk over the tree meets. -/
theorem exists_outline (nodes : List Node) : ∃ paths, Outlines nodes paths := by
  have hheld : ∀ n : Node, ∃ paths, Outlines n.held paths := fun n =>
    Node.induction_held (fun n ih => exists_outline_of_held n.held ih) n
  exact exists_outline_of_held nodes fun n _ => hheld n

end Stencil
