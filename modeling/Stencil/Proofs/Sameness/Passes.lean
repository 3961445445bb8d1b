import Stencil.Plan.Merge
import Stencil.Proofs.Sameness.Bare
import Stencil.Schema.Violation

/-!
# Passes over bare trees

Places are carried along by checking, generating and merging, and nothing is decided by them. So
every pass commutes with taking places away: the violations of a bare tree are those of the tree, its
plan is the plan of the tree, and merging a bare plan gives the bare merged plan.

Marks of void elements do count when a plan is generated. They are set by checking, on every element
of a tree that is accepted, so **checking a tree without marks gives the tree with marks**
(`Registry.mark_bare`).
-/

namespace Stencil

/-! ## Checking -/

namespace Schema

/-- The violation without its place. -/
def Violation.bare : Violation → Violation
  | .unknownElement name suggestion _ => .unknownElement name suggestion none
  | .unknownAttribute attr element _ => .unknownAttribute attr element none
  | .voidHasChildren name _ => .voidHasChildren name none
  | .ambiguousQuoting attr _ => .ambiguousQuoting attr none

namespace Violation

theorem kind_bare (v : Violation) : v.bare.kind = v.kind := by
  cases v <;> rfl

theorem description_bare (v : Violation) : v.bare.description = v.description := by
  cases v <;> rfl

theorem hint_bare (v : Violation) : v.bare.hint = v.hint := by
  cases v with
  | unknownElement name suggestion place => cases suggestion <;> rfl
  | _ => rfl

end Violation

theorem inspected_bare (c : Content) : inspected c.bare = (inspected c).map Expr.bare := by
  cases c with
  | joined parts =>
    rw [Content.bare, inspected, inspected]
    induction parts with
    | nil => rfl
    | cons part rest ih => cases part <;> simp [bareContents, Content.bare, ih]
  | _ => rfl

namespace Registry

variable (r : Registry)

theorem attributeViolations_bare (entry : Entry) (element : String) (a : Attribute) :
    r.attributeViolations entry element a.bare =
      (r.attributeViolations entry element a).map Violation.bare := by
  simp only [attributeViolations, List.map_append, Attribute.bare, inspected_bare]
  congr 1
  · by_cases h : r.allows entry a.name <;> simp [h, Violation.bare]
  · simp only [List.filter_map, List.map_map]
    rfl

theorem isEmpty_bareNodes (voids : Bool) (nodes : List Node) :
    (bareNodes voids nodes).isEmpty = nodes.isEmpty := by
  cases nodes <;> rfl

theorem nodeViolations_bare (voids : Bool) (n : Node) :
    r.nodeViolations (n.bare voids) = (r.nodeViolations n).map Violation.bare := by
  cases n with
  | element name attributes children void place =>
    simp only [Node.bare, nodeViolations]
    cases r.lookup name with
    | none => rfl
    | some entry =>
      simp only [isEmpty_bareNodes, List.map_append, List.flatMap_map, List.map_flatMap,
        attributeViolations_bare]
      congr 1
      split <;> rfl
  | _ => rfl

end Registry

end Schema

mutual

theorem Node.walk_bare (voids : Bool) (n : Node) :
    (n.bare voids).walk = n.walk.map (Node.bare voids) := by
  cases n with
  | element name attributes children => simp [Node.bare, Node.walk, walk_bareNodes voids children]
  | component reference arguments children =>
    simp [Node.bare, Node.walk, walk_bareNodes voids children]
  | choice branches => simp [Node.bare, Node.walk, walkBodies_bare voids branches]
  | each names source body => simp [Node.bare, Node.walk, walk_bareNodes voids body]
  | cases subject arms => simp [Node.bare, Node.walk, walkBodies_bare voids arms]
  | _ => simp [Node.bare, Node.walk]

theorem walk_bareNodes (voids : Bool) (nodes : List Node) :
    walk (bareNodes voids nodes) = (walk nodes).map (Node.bare voids) := by
  cases nodes with
  | nil => rfl
  | cons n rest => simp [bareNodes, walk, Node.walk_bare voids n, walk_bareNodes voids rest]

theorem walkBodies_bare (voids : Bool) (bodies : List (Option Expr × List Node)) :
    walkBodies (bareBodies voids bodies) = (walkBodies bodies).map (Node.bare voids) := by
  match bodies with
  | [] => rfl
  | (_, body) :: rest =>
    simp [bareBodies, walkBodies, walk_bareNodes voids body, walkBodies_bare voids rest]

end

namespace Schema.Registry

variable (r : Registry)

theorem violations_bare (voids : Bool) (nodes : List Node) :
    r.violations (bareNodes voids nodes) = (r.violations nodes).map Violation.bare := by
  simp only [violations, walk_bareNodes, List.flatMap_map, List.map_flatMap, nodeViolations_bare]

/-! ## Marks of void elements -/

theorem exists_entry {name : String} {attributes : List Attribute} {children : List Node}
    {void : Bool} {place : Option Location}
    (h : r.nodeViolations (.element name attributes children void place) = []) :
    ∃ entry, r.lookup name = some entry := by
  rw [nodeViolations] at h
  cases hentry : r.lookup name with
  | none => rw [hentry] at h; cases h
  | some entry => exact ⟨entry, rfl⟩

mutual

theorem markNode_bare (n : Node) (h : ∀ m ∈ n.walk, r.nodeViolations m = []) :
    r.markNode (n.bare false) = (r.markNode n).bare true := by
  cases n with
  | element name attributes children void place =>
    rw [Node.walk, List.forall_mem_cons] at h
    obtain ⟨entry, hentry⟩ := r.exists_entry h.1
    simp only [Node.bare, markNode, hentry, mark_bare children h.2, Bool.true_and]
  | component reference arguments children place =>
    rw [Node.walk, List.forall_mem_cons] at h
    simp only [Node.bare, markNode, mark_bare children h.2]
  | choice branches place =>
    rw [Node.walk, List.forall_mem_cons] at h
    simp only [Node.bare, markNode, markBodies_bare branches h.2]
  | each names source body place =>
    rw [Node.walk, List.forall_mem_cons] at h
    simp only [Node.bare, markNode, mark_bare body h.2]
  | cases subject arms place =>
    rw [Node.walk, List.forall_mem_cons] at h
    simp only [Node.bare, markNode, markBodies_bare arms h.2]
  | _ => simp only [Node.bare, markNode]

/-- **Checking a tree without marks gives the tree with marks**, if it is accepted. -/
theorem mark_bare (nodes : List Node) (h : ∀ m ∈ walk nodes, r.nodeViolations m = []) :
    r.mark (bareNodes false nodes) = bareNodes true (r.mark nodes) := by
  cases nodes with
  | nil => rfl
  | cons n rest =>
    rw [walk, List.forall_mem_append] at h
    rw [bareNodes, mark, mark, bareNodes, markNode_bare n h.1, mark_bare rest h.2]

theorem markBodies_bare (bodies : List (Option Expr × List Node))
    (h : ∀ m ∈ walkBodies bodies, r.nodeViolations m = []) :
    r.markBodies (bareBodies false bodies) = bareBodies true (r.markBodies bodies) := by
  match bodies with
  | [] => rfl
  | (_, body) :: rest =>
    rw [walkBodies, List.forall_mem_append] at h
    rw [bareBodies, markBodies, markBodies, bareBodies, mark_bare body h.1,
      markBodies_bare rest h.2]

end

end Schema.Registry

/-! ## Generating -/

/-- The error without places. -/
def PlanError.bare : PlanError → PlanError
  | .unknownContent content => .unknownContent content.bare
  | e => e

/-- A result without places, where it is clear how to take them away from a success. -/
def bareResult {α : Type} (f : α → α) : Except PlanError α → Except PlanError α
  | .ok a => .ok (f a)
  | .error e => .error e.bare

theorem bareResult_bind {α β : Type} {f : α → α} {g : β → β} {x y : Except PlanError α}
    {k l : α → Except PlanError β} (hx : y = bareResult f x)
    (hk : ∀ a, l (f a) = bareResult g (k a)) : (y >>= l) = bareResult g (x >>= k) := by
  subst hx
  cases x with
  | ok a => exact hk a
  | error e => rfl

theorem barePlan_append (p q : Plan) : barePlan (p ++ q) = barePlan p ++ barePlan q := by
  induction p with
  | nil => rfl
  | cons op rest ih => simp [barePlan, ih]

namespace Generate

theorem part_bare (c : Content) : part c.bare = bareResult Part.bare (part c) := by
  cases c <;> rfl

theorem parts_bare (parts : List Content) :
    (bareContents parts).mapM part = bareResult (List.map Part.bare) (parts.mapM part) := by
  induction parts with
  | nil => rfl
  | cons c rest ih =>
    rw [bareContents, List.mapM_cons, List.mapM_cons]
    exact bareResult_bind (part_bare c) fun p => bareResult_bind ih fun ps => rfl

theorem literalTexts_bare (parts : List Part) :
    literalTexts? (parts.map Part.bare) = literalTexts? parts := by
  induction parts with
  | nil => rfl
  | cons p rest ih => cases p <;> simp [Part.bare, literalTexts?, ih]

theorem joinParts_bare (parts : List Part) :
    joinParts (parts.map Part.bare) = (joinParts parts).bare := by
  rw [joinParts, joinParts, literalTexts_bare]
  split <;> simp [Op.bare]

theorem attributeValue_bare (c : Content) :
    attributeValue c.bare = bareResult Op.bare (attributeValue c) := by
  cases c with
  | joined parts =>
    exact bareResult_bind (parts_bare parts) fun ps => congrArg Except.ok (joinParts_bare ps)
  | _ => simp [Content.bare, attributeValue, bareResult, Op.bare, PlanError.bare]

theorem attributeOps_bare (a : Attribute) :
    attributeOps a.bare = bareResult barePlan (attributeOps a) := by
  obtain ⟨name, value, place⟩ := a
  cases value with
  | toggle e =>
    simp only [Attribute.bare, Content.bare, attributeOps]
    rw [show e.bare.alwaysTrue = e.alwaysTrue from rfl]
    split <;> simp [bareResult, barePlan, Op.bare]
  | _ =>
    exact bareResult_bind (attributeValue_bare _) fun op => by
      simp [pure, Except.pure, bareResult, barePlan, Op.bare, Attribute.bare]

theorem attributesOps_bare (attributes : List Attribute) :
    attributesOps (attributes.map Attribute.bare) =
      bareResult barePlan (attributesOps attributes) := by
  induction attributes with
  | nil => rfl
  | cons a rest ih =>
    rw [List.map_cons, attributesOps, attributesOps]
    exact bareResult_bind (attributeOps_bare a) fun p => bareResult_bind ih fun q =>
      congrArg Except.ok (barePlan_append p q).symm

theorem textOp_bare (c : Content) : textOp c.bare = bareResult Op.bare (textOp c) := by
  cases c with
  | dynamic e raw => cases raw <;> rfl
  | _ => rfl

theorem arguments_bare (attributes : List Attribute) :
    arguments (attributes.map Attribute.bare) = (arguments attributes).map bareArgument := by
  simp [arguments, Attribute.bare, bareArgument]

mutual

theorem node_bare (n : Node) : node (n.bare true) = bareResult barePlan (node n) := by
  cases n with
  | element name attributes children void place =>
    rw [Node.bare, node, node, Bool.true_and]
    refine bareResult_bind (attributesOps_bare attributes) fun inTag => ?_
    cases void with
    | true => simp [bareResult, barePlan, barePlan_append, Op.bare, pure, Except.pure]
    | false =>
      refine bareResult_bind (nodes_bare children) fun inside => ?_
      simp [bareResult, barePlan, barePlan_append, Op.bare, pure, Except.pure]
  | text content place =>
    rw [Node.bare, node, node]
    exact bareResult_bind (textOp_bare content) fun op => rfl
  | doctype place => rfl
  | component reference attributes children place =>
    cases children with
    | nil =>
      simp [Node.bare, bareNodes, node, bareResult, barePlan, Op.bare, bareChildren,
        arguments_bare]
    | cons child children =>
      rw [Node.bare, bareNodes, node, node, arguments_bare]
      refine bareResult_bind (node_bare child) fun first => ?_
      refine bareResult_bind (nodes_bare children) fun others => ?_
      simp [bareResult, barePlan, barePlan_append, Op.bare, bareChildren, pure, Except.pure]
  | choice branches place =>
    rw [Node.bare, node, node]
    exact bareResult_bind (guarded_bare branches) fun bodies => rfl
  | each names source body place =>
    rw [Node.bare, node, node]
    exact bareResult_bind (nodes_bare body) fun inside => rfl
  | cases subject arms place =>
    rw [Node.bare, node, node]
    exact bareResult_bind (guarded_bare arms) fun bodies => rfl
  | unknown => rfl

/-- **The plan of a bare tree is the plan of the tree**, its places taken away. -/
theorem nodes_bare (ns : List Node) :
    nodes (bareNodes true ns) = bareResult barePlan (nodes ns) := by
  cases ns with
  | nil => rfl
  | cons n rest =>
    rw [bareNodes, nodes, nodes]
    exact bareResult_bind (node_bare n) fun first => bareResult_bind (nodes_bare rest) fun others =>
      congrArg Except.ok (barePlan_append first others).symm

theorem guarded_bare (bodies : List (Option Expr × List Node)) :
    guarded (bareBodies true bodies) = bareResult bareGuarded (guarded bodies) := by
  match bodies with
  | [] => rfl
  | (condition, body) :: rest =>
    rw [bareBodies, guarded, guarded]
    exact bareResult_bind (nodes_bare body) fun inside =>
      bareResult_bind (guarded_bare rest) fun others => rfl

end

end Generate

/-! ## Merging -/

namespace Merge

theorem literal_bare (op : Op) : op.bare.literal? = op.literal? := by
  cases op <;> rfl

theorem joinLiterals_bare (plan : Plan) :
    joinLiterals (barePlan plan) = barePlan (joinLiterals plan) := by
  induction plan with
  | nil => rfl
  | cons op rest ih =>
    rw [barePlan, joinLiterals, joinLiterals, literal_bare, ih]
    cases op.literal? with
    | none => rfl
    | some first =>
      dsimp only
      split
      · rfl
      · cases joinLiterals rest with
        | nil => rfl
        | cons next more =>
          simp only [barePlan, literal_bare]
          cases next.literal? <;> rfl

theorem prune_bare (branches : List (Option Expr × Plan)) :
    prune (bareGuarded branches) = bareGuarded (prune branches) := by
  induction branches with
  | nil => rfl
  | cons b rest ih =>
    obtain ⟨condition | condition, body⟩ := b
    · rfl
    · simp only [bareGuarded, Option.map_some, prune, ih]
      rw [show condition.bare.constant? = condition.constant? from rfl]
      cases condition.constant? with
      | none => rfl
      | some value =>
        dsimp only
        split <;> rfl

theorem isEmpty_barePlan (plan : Plan) : (barePlan plan).isEmpty = plan.isEmpty := by
  cases plan <;> rfl

theorem idle_bareGuarded (branches : List (Option Expr × Plan)) :
    ((bareGuarded branches).map Prod.snd).all List.isEmpty =
      (branches.map Prod.snd).all List.isEmpty := by
  induction branches with
  | nil => rfl
  | cons b rest ih => simp [bareGuarded, isEmpty_barePlan, ih]

theorem idle_bare (op : Op) : op.bare.plans.all List.isEmpty = op.plans.all List.isEmpty := by
  cases op with
  | branch branches => exact idle_bareGuarded branches
  | switch subject arms => exact idle_bareGuarded arms
  | loop names source body => simp [Op.bare, Op.plans, isEmpty_barePlan]
  | toggle expr body => simp [Op.bare, Op.plans, isEmpty_barePlan]
  | call reference arguments children =>
    cases children <;> simp [Op.bare, Op.plans, bareChildren, isEmpty_barePlan]
  | _ => rfl

theorem unlessIdle_bare (op : Op) : unlessIdle op.bare = barePlan (unlessIdle op) := by
  rw [unlessIdle, unlessIdle, idle_bare]
  split <;> rfl

theorem resolve_bare (branches : List (Option Expr × Plan)) :
    resolve (bareGuarded branches) = barePlan (resolve branches) := by
  rw [resolve, resolve, prune_bare]
  cases prune branches with
  | nil => rfl
  | cons b rest =>
    obtain ⟨condition | condition, body⟩ := b
    · rfl
    · exact unlessIdle_bare (.branch ((some condition, body) :: rest))

mutual

theorem simplifyOp_bare (op : Op) : simplifyOp op.bare = barePlan (simplifyOp op) := by
  cases op with
  | branch branches =>
    rw [Op.bare, simplifyOp, simplifyOp, mergeGuarded_bare branches, resolve_bare]
  | loop names source body =>
    rw [Op.bare, simplifyOp, simplifyOp, ← unlessIdle_bare, simplify_bare body, joinLiterals_bare,
      Op.bare]
  | switch subject arms =>
    rw [Op.bare, simplifyOp, simplifyOp, ← unlessIdle_bare, mergeGuarded_bare arms, Op.bare]
  | toggle expr body =>
    rw [Op.bare, simplifyOp, simplifyOp, ← unlessIdle_bare, simplify_bare body, joinLiterals_bare,
      Op.bare]
  | call reference arguments children =>
    cases children with
    | none => rfl
    | some body =>
      rw [Op.bare, bareChildren, simplifyOp, simplifyOp, simplify_bare body, joinLiterals_bare]
      rfl
  | _ => rfl

theorem simplify_bare (plan : List Op) : simplify (barePlan plan) = barePlan (simplify plan) := by
  cases plan with
  | nil => rfl
  | cons op rest =>
    rw [barePlan, simplify, simplify, simplifyOp_bare op, simplify_bare rest, barePlan_append]

theorem mergeGuarded_bare (branches : List (Option Expr × List Op)) :
    mergeGuarded (bareGuarded branches) = bareGuarded (mergeGuarded branches) := by
  match branches with
  | [] => rfl
  | (condition, body) :: rest =>
    rw [bareGuarded, mergeGuarded, mergeGuarded, simplify_bare body, joinLiterals_bare,
      mergeGuarded_bare rest, bareGuarded]

end

end Merge

theorem Plan.merge_bare (plan : Plan) : Plan.merge (barePlan plan) = barePlan plan.merge := by
  rw [Plan.merge, Plan.merge, Merge.simplify_bare, Merge.joinLiterals_bare]

end Stencil
