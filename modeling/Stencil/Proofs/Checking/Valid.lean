import Stencil.Proofs.Checking.Paths
import Stencil.Schema.Violation

/-!
# Which trees are accepted

An element is valid if the registry has an entry for it, if it has no children where the entry is
void, if the entry has all its attributes, and if no expression that one of them shows is a string
with quotes in it. All other nodes are valid.

A tree is accepted if and only if its nodes at all paths are valid (`check_valid`). Otherwise the
violations of its elements are reported, one element after the other in the order of their paths.
-/

namespace Stencil

open Schema

/-- The expressions of an attribute that end up in the markup or decide whether it is there. -/
inductive Content.Shows : Content → Expr → Prop where
  | dynamic (e : Expr) (raw : Bool) : Shows (.dynamic e raw) e
  | toggle (e : Expr) : Shows (.toggle e) e
  | part {parts : List Content} {e : Expr} {raw : Bool} (h : .dynamic e raw ∈ parts) :
    Shows (.joined parts) e

/-- What a registry asks of a node, what it holds aside. -/
def Node.IsValid (r : Registry) : Node → Prop
  | .element name attributes children _ _ =>
    ∃ entry, r.lookup name = some entry ∧ (entry.isVoid = true → children = []) ∧
      ∀ a ∈ attributes, r.allows entry a.name = true ∧
        ∀ e, a.value.Shows e → isAmbiguous e = false
  | _ => True

/-- What there is to check about a node: name and attributes of an element, whether it has
children, and where it begins. -/
def Node.element? : Node → Option (String × List Attribute × Bool × Option Location)
  | .element name attributes children _ place => some (name, attributes, children.isEmpty, place)
  | _ => none

mutual

/-- The node with other arguments for all components in it. -/
def Node.rearrange (given : Expr → List Attribute → List Attribute) : Node → Node
  | .element name attributes children void place =>
    .element name attributes (rearrangeAll given children) void place
  | .component reference arguments children place =>
    .component reference (given reference arguments) (rearrangeAll given children) place
  | .choice branches place => .choice (rearrangeBodies given branches) place
  | .each names source body place => .each names source (rearrangeAll given body) place
  | .cases subject arms place => .cases subject (rearrangeBodies given arms) place
  | n => n

/-- The nodes with other arguments for all components. -/
def rearrangeAll (given : Expr → List Attribute → List Attribute) : List Node → List Node
  | [] => []
  | n :: rest => n.rearrange given :: rearrangeAll given rest

/-- The bodies with other arguments for all components. -/
def rearrangeBodies (given : Expr → List Attribute → List Attribute) :
    List (Option Expr × List Node) → List (Option Expr × List Node)
  | [] => []
  | (condition, body) :: rest => (condition, rearrangeAll given body) :: rearrangeBodies given rest

end

/-! ## What is checked about a node -/

theorem mem_inspected (c : Content) (e : Expr) : e ∈ inspected c ↔ c.Shows e := by
  constructor
  · intro h
    cases c with
    | literal | unknown => cases h
    | dynamic shown raw =>
      rw [inspected, List.mem_singleton] at h
      exact h ▸ .dynamic e raw
    | toggle shown =>
      rw [inspected, List.mem_singleton] at h
      exact h ▸ .toggle e
    | joined parts =>
      obtain ⟨part, hpart, he⟩ := List.mem_filterMap.mp h
      cases part with
      | dynamic shown raw =>
        cases he
        exact .part hpart
      | literal | toggle | joined | unknown => cases he
  · intro h
    cases h with
    | dynamic | toggle => exact List.mem_singleton_self e
    | part h => exact List.mem_filterMap.mpr ⟨_, h, rfl⟩

theorem Node.exists_element {n : Node} (h : n.element? ≠ none) :
    ∃ name attributes children void place, n = .element name attributes children void place := by
  cases n with
  | element name attributes children void place => exact ⟨_, _, _, _, _, rfl⟩
  | _ => exact absurd rfl h

namespace Schema.Registry

variable (r : Registry)

theorem attributeViolations_eq_nil (entry : Entry) (element : String) (a : Attribute) :
    r.attributeViolations entry element a = [] ↔
      r.allows entry a.name = true ∧ ∀ e, a.value.Shows e → isAmbiguous e = false := by
  unfold attributeViolations
  simp [← mem_inspected]

theorem nodeViolations_eq_nil (n : Node) : r.nodeViolations n = [] ↔ n.IsValid r := by
  cases n with
  | element name attributes children void place =>
    rw [nodeViolations, Node.IsValid]
    cases hentry : r.lookup name with
    | none => simp
    | some entry => simp [attributeViolations_eq_nil]
  | _ => simp [nodeViolations, Node.IsValid]

theorem nodeViolations_of_no_element {n : Node} (h : n.element? = none) :
    r.nodeViolations n = [] := by
  cases n with
  | element => cases h
  | _ => rw [nodeViolations]; simp

theorem nodeViolations_congr {n m : Node} (h : n.element? = m.element?) :
    r.nodeViolations n = r.nodeViolations m := by
  by_cases hn : n.element? = none
  · rw [nodeViolations_of_no_element r hn, nodeViolations_of_no_element r (h ▸ hn)]
  · obtain ⟨name, attributes, children, void, place, rfl⟩ := Node.exists_element hn
    obtain ⟨_, _, others, void', _, rfl⟩ := Node.exists_element (h ▸ hn)
    simp only [Node.element?, Option.some.injEq, Prod.mk.injEq] at h
    obtain ⟨rfl, rfl, hchildren, rfl⟩ := h
    simp only [nodeViolations, hchildren]

end Schema.Registry

/-! ## The nodes of a tree that is changed node by node -/

/-- A change of nodes that reaches all nodes below. -/
def Node.Spreads (change : Node → Node) : Prop :=
  ∀ n : Node, (change n).held = n.held.map change

theorem Node.at?_change {change : Node → Node} (h : Node.Spreads change) (path : List Nat)
    (n : Node) : (change n).at? path = (n.at? path).map change := by
  induction path generalizing n with
  | nil => simp [Node.at?]
  | cons i path ih =>
    rw [Node.at?, Node.at?, h n, List.getElem?_map, Option.bind_map, Option.map_bind]
    congr 1
    funext m
    exact ih m

theorem nodeAt?_change {change : Node → Node} (h : Node.Spreads change) (path : List Nat)
    (nodes : List Node) : nodeAt? (nodes.map change) path = (nodeAt? nodes path).map change := by
  cases path with
  | nil => rfl
  | cons i path =>
    rw [nodeAt?, nodeAt?, List.getElem?_map, Option.bind_map, Option.map_bind]
    congr 1
    funext m
    exact Node.at?_change h path m

theorem rearrangeAll_eq (given : Expr → List Attribute → List Attribute) (nodes : List Node) :
    rearrangeAll given nodes = nodes.map (·.rearrange given) := by
  induction nodes with
  | nil => rfl
  | cons n rest ih => rw [rearrangeAll, ih, List.map_cons]

theorem held_rearrangeBodies (given : Expr → List Attribute → List Attribute)
    (bodies : List (Option Expr × List Node)) :
    (rearrangeBodies given bodies).flatMap Prod.snd =
      (bodies.flatMap Prod.snd).map (·.rearrange given) := by
  induction bodies with
  | nil => rfl
  | cons b rest ih =>
    rw [rearrangeBodies, List.flatMap_cons, List.flatMap_cons, ih, rearrangeAll_eq, List.map_append]

theorem Node.spreads_rearrange (given : Expr → List Attribute → List Attribute) :
    Node.Spreads (·.rearrange given) := by
  intro n
  cases n with
  | element | component | each =>
    simp only [Node.rearrange, Node.held]
    exact rearrangeAll_eq given _
  | choice branches | cases subject branches =>
    simp only [Node.rearrange, Node.held]
    exact held_rearrangeBodies given branches
  | text | doctype | unknown => simp [Node.rearrange, Node.held]

theorem Node.element?_rearrange (given : Expr → List Attribute → List Attribute) (n : Node) :
    (n.rearrange given).element? = n.element? := by
  cases n with
  | element name attributes children void place =>
    rw [Node.rearrange, Node.element?, Node.element?, rearrangeAll_eq, List.isEmpty_map]
  | _ => simp [Node.rearrange, Node.element?]

namespace Schema.Registry

variable (r : Registry)

theorem mark_eq (nodes : List Node) : r.mark nodes = nodes.map r.markNode := by
  induction nodes with
  | nil => rfl
  | cons n rest ih => rw [mark, ih, List.map_cons]

theorem held_markBodies (bodies : List (Option Expr × List Node)) :
    (r.markBodies bodies).flatMap Prod.snd = (bodies.flatMap Prod.snd).map r.markNode := by
  induction bodies with
  | nil => rfl
  | cons b rest ih =>
    rw [markBodies, List.flatMap_cons, List.flatMap_cons, ih, mark_eq, List.map_append]

theorem spreads_markNode : Node.Spreads r.markNode := by
  intro n
  cases n with
  | element | component | each =>
    simp only [markNode, Node.held]
    exact r.mark_eq _
  | choice branches | cases subject branches =>
    simp only [markNode, Node.held]
    exact r.held_markBodies branches
  | text | doctype | unknown => simp [markNode, Node.held]

theorem element?_markNode (n : Node) : (r.markNode n).element? = n.element? := by
  cases n with
  | element name attributes children void place =>
    rw [markNode, Node.element?, Node.element?, mark_eq, List.isEmpty_map]
  | _ => simp [markNode, Node.element?]

/-! ## The answer -/

/-- What is wrong with the node at a path. -/
def violationsAt (nodes : List Node) (path : List Nat) : List Violation :=
  ((nodeAt? nodes path).map r.nodeViolations).getD []

theorem violationsAt_of_some {nodes : List Node} {path : List Nat} {n : Node}
    (h : nodeAt? nodes path = some n) : r.violationsAt nodes path = r.nodeViolations n := by
  simp [violationsAt, h]

theorem violationsAt_of_no_element {nodes : List Node} {path : List Nat}
    (h : (nodeAt? nodes path).bind Node.element? = none) : r.violationsAt nodes path = [] := by
  cases hn : nodeAt? nodes path with
  | none => simp [violationsAt, hn]
  | some n =>
    rw [hn, Option.bind_some] at h
    rw [violationsAt_of_some r hn, nodeViolations_of_no_element r h]

theorem violations_eq {nodes : List Node} {paths : List (List Nat)} (h : Outlines nodes paths) :
    r.violations nodes = paths.flatMap (r.violationsAt nodes) :=
  calc (walk nodes).flatMap r.nodeViolations
      = ((walk nodes).map some).flatMap fun n? => (n?.map r.nodeViolations).getD [] := by
        simp [List.flatMap_map]
    _ = (paths.map (nodeAt? nodes)).flatMap fun n? => (n?.map r.nodeViolations).getD [] := by
        rw [h.nodes_eq]
    _ = paths.flatMap (r.violationsAt nodes) := by
        rw [List.flatMap_map]
        rfl

theorem exists_element_paths (nodes : List Node) :
    ∃ paths : List (List Nat), paths.Pairwise (· < ·) ∧
      (∀ path, path ∈ paths ↔ ((nodeAt? nodes path).bind Node.element?).isSome) ∧
      r.violations nodes = paths.flatMap (r.violationsAt nodes) := by
  obtain ⟨paths, h⟩ := exists_outline nodes
  refine ⟨paths.filter fun path => ((nodeAt? nodes path).bind Node.element?).isSome,
    h.ordered.filter _, fun path => ?_, ?_⟩
  · rw [List.mem_filter, h.mem_iff]
    cases nodeAt? nodes path <;> simp
  · rw [r.violations_eq h]
    clear h
    induction paths with
    | nil => rfl
    | cons path rest ih =>
      rw [List.flatMap_cons, List.filter_cons, ih]
      by_cases he : ((nodeAt? nodes path).bind Node.element?).isSome
      · rw [if_pos he, List.flatMap_cons]
      · rw [if_neg he, violationsAt_of_no_element r (Option.not_isSome_iff_eq_none.mp he),
          List.nil_append]

theorem violations_eq_nil (nodes : List Node) :
    r.violations nodes = [] ↔ ∀ path n, nodeAt? nodes path = some n → n.IsValid r := by
  obtain ⟨paths, h⟩ := exists_outline nodes
  rw [r.violations_eq h, List.flatMap_eq_nil_iff]
  constructor
  · intro hnil path n hn
    have hpath : path ∈ paths := (h.mem_iff path).mpr (by simp [hn])
    rw [← nodeViolations_eq_nil, ← violationsAt_of_some r hn]
    exact hnil path hpath
  · intro hvalid path hpath
    obtain ⟨n, hn⟩ := Option.isSome_iff_exists.mp ((h.mem_iff path).mp hpath)
    rw [violationsAt_of_some r hn, nodeViolations_eq_nil]
    exact hvalid path n hn

/-- Nothing but the elements of a tree and what they are counts. -/
theorem violations_congr {nodes others : List Node}
    (h : ∀ path, (nodeAt? nodes path).bind Node.element? =
      (nodeAt? others path).bind Node.element?) : r.violations nodes = r.violations others := by
  obtain ⟨paths, hordered, hmem, heq⟩ := r.exists_element_paths nodes
  obtain ⟨paths', hordered', hmem', heq'⟩ := r.exists_element_paths others
  have hpaths : paths = paths' := by
    refine hordered.eq_of_mem_iff hordered' fun path => ?_
    rw [hmem, hmem', h]
  subst hpaths
  rw [heq, heq']
  refine List.flatMap_congr fun path hpath => ?_
  obtain ⟨shown, hshown⟩ := Option.isSome_iff_exists.mp ((hmem path).mp hpath)
  obtain ⟨n, hn, hne⟩ := Option.bind_eq_some_iff.mp hshown
  obtain ⟨m, hm, hme⟩ := Option.bind_eq_some_iff.mp ((h path).symm.trans hshown)
  rw [violationsAt_of_some r hn, violationsAt_of_some r hm]
  exact r.nodeViolations_congr (hne.trans hme.symm)

theorem violations_rearrange (given : Expr → List Attribute → List Attribute)
    (nodes : List Node) : r.violations (rearrangeAll given nodes) = r.violations nodes := by
  refine r.violations_congr fun path => ?_
  rw [rearrangeAll_eq, nodeAt?_change (Node.spreads_rearrange given), Option.bind_map]
  congr 1
  funext n
  exact Node.element?_rearrange given n

theorem nodeAt?_mark (nodes : List Node) (path : List Nat) :
    nodeAt? (r.mark nodes) path = (nodeAt? nodes path).map r.markNode := by
  rw [mark_eq]
  exact nodeAt?_change r.spreads_markNode path nodes

theorem void_markNode {n : Node} (h : n.IsValid r) {name : String}
    {attributes : List Attribute} {children : List Node} {void : Bool} {place : Option Location}
    (hmarked : r.markNode n = .element name attributes children void place) :
    ∃ entry, r.lookup name = some entry ∧ void = entry.isVoid := by
  cases n with
  | element =>
    obtain ⟨entry, hentry, -⟩ := h
    simp only [markNode, hentry, Node.element.injEq] at hmarked
    obtain ⟨rfl, -, -, rfl, -⟩ := hmarked
    exact ⟨entry, hentry, rfl⟩
  | _ => simp [markNode] at hmarked

/-- **Exactly the valid trees are accepted.** A tree passes if and only if its nodes at all paths
are valid. It then has the same elements at the same paths, each marked as void or not as its entry
is. If a node is not valid, there is one error, with the violations of all elements, one element
after the other in the order of their paths. A valid element adds none, and one without an entry
adds one and hides nothing of what stands in it. What is given to components makes no
difference. -/
theorem check_valid (nodes : List Node) :
    ((∃ tree, r.check nodes = .ok tree) ↔
      ∀ path n, nodeAt? nodes path = some n → n.IsValid r) ∧
    (∀ tree, r.check nodes = .ok tree → ∀ path,
      (nodeAt? tree path).bind Node.element? = (nodeAt? nodes path).bind Node.element? ∧
      ∀ name attributes children void place,
        nodeAt? tree path = some (.element name attributes children void place) →
          ∃ entry, r.lookup name = some entry ∧ void = entry.isVoid) ∧
    (∃ paths : List (List Nat), paths.Pairwise (· < ·) ∧
      (∀ path, path ∈ paths ↔ ((nodeAt? nodes path).bind Node.element?).isSome) ∧
      ((∃ path n, nodeAt? nodes path = some n ∧ ¬ n.IsValid r) →
        paths.flatMap (r.violationsAt nodes) ≠ [] ∧
          r.check nodes = .error (paths.flatMap (r.violationsAt nodes)))) ∧
    (∀ path n, nodeAt? nodes path = some n → (r.violationsAt nodes path = [] ↔ n.IsValid r)) ∧
    (∀ path name attributes children void place,
      nodeAt? nodes path = some (.element name attributes children void place) →
        r.lookup name = none → r.violationsAt nodes path = [r.missing name place]) ∧
    ∀ given violations,
      r.check (rearrangeAll given nodes) = .error violations ↔ r.check nodes = .error violations := by
  refine ⟨⟨?_, ?_⟩, ?_, ?_, ?_, ?_, ?_⟩
  · rintro ⟨tree, htree⟩
    exact (r.violations_eq_nil nodes).mp (r.check_eq_ok.mp htree).1
  · intro hvalid
    exact ⟨_, r.check_of_nil ((r.violations_eq_nil nodes).mpr hvalid)⟩
  · intro tree htree path
    obtain ⟨hnil, rfl⟩ := r.check_eq_ok.mp htree
    rw [nodeAt?_mark]
    constructor
    · rw [Option.bind_map]
      congr 1
      funext n
      exact r.element?_markNode n
    · intro name attributes children void place hmarked
      obtain ⟨n, hn, hmarked⟩ := Option.map_eq_some_iff.mp hmarked
      exact r.void_markNode ((r.violations_eq_nil nodes).mp hnil path n hn) hmarked
  · obtain ⟨paths, hordered, hmem, heq⟩ := r.exists_element_paths nodes
    refine ⟨paths, hordered, hmem, ?_⟩
    rintro ⟨path, n, hn, hinvalid⟩
    rw [← heq]
    have hne : r.violations nodes ≠ [] := by
      intro hnil
      exact hinvalid ((r.violations_eq_nil nodes).mp hnil path n hn)
    exact ⟨hne, r.check_of_ne_nil hne⟩
  · intro path n hn
    rw [violationsAt_of_some r hn, nodeViolations_eq_nil]
  · intro path name attributes children void place hn hunknown
    rw [violationsAt_of_some r hn]
    simp [nodeViolations, hunknown]
  · intro given violations
    rw [check_eq_error, check_eq_error, violations_rearrange]

end Schema.Registry

end Stencil
