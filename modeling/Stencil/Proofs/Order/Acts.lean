import Stencil.Plan.Generate
import Stencil.Plan.Walk
import Stencil.Proofs.Markup.Marks
import Stencil.Proofs.Results
import Stencil.Proofs.Shape.Formed

/-!
# Plans follow their trees

What a plan does at run time, apart from writing what is known and what stands in attributes, are
its acts. The acts of a plan that a tree is translated to are those that the nodes of the tree ask
for, one for one and in the same order. Void elements must not have children, as in every tree that
was accepted.
-/

namespace Stencil

/-- What an operation does at run time, the plans that it holds aside. -/
inductive Act where
  | raw (expr : Expr)
  | escaped (expr : Expr)
  | branch (conditions : List (Option Expr))
  | loop (names : List String) (source : Expr)
  | switch (subject : Expr) (patterns : List (Option Expr))
  | call (reference : Expr) (arguments : List (String × Content))

/-- The act of an operation; none if it writes what is known, or belongs to an attribute. -/
def Op.act? : Op → Option Act
  | .raw e => some (.raw e)
  | .escaped e false => some (.escaped e)
  | .branch branches => some (.branch (branches.map Prod.fst))
  | .loop names source _ => some (.loop names source)
  | .switch subject arms => some (.switch subject (arms.map Prod.fst))
  | .call reference arguments _ => some (.call reference arguments)
  | _ => none

/-- The act that a node asks for; none if its text is known, and for elements. -/
def Node.act? : Node → Option Act
  | .text (.dynamic e true) _ => some (.raw e)
  | .text (.dynamic e false) _ => some (.escaped e)
  | .choice branches _ => some (.branch (branches.map Prod.fst))
  | .each names source _ _ => some (.loop names source)
  | .cases subject arms _ => some (.switch subject (arms.map Prod.fst))
  | .component reference arguments _ _ => some (.call reference (Generate.arguments arguments))
  | _ => none

/-- The acts of a plan, at all depths. -/
def acts (plan : Plan) : List Act :=
  (walkPlan plan).filterMap Op.act?

/-- The acts of guarded plans, at all depths. -/
def actsGuarded (branches : List (Option Expr × Plan)) : List Act :=
  (walkBranches branches).filterMap Op.act?

/-- The acts that a tree asks for, in document order. -/
def treeActs (nodes : List Node) : List Act :=
  (walk nodes).filterMap Node.act?

/-- The acts that guarded bodies ask for, in document order. -/
def bodyActs (bodies : List (Option Expr × List Node)) : List Act :=
  (walkBodies bodies).filterMap Node.act?

/-- A void element has no children. -/
def Node.VoidIsEmpty : Node → Prop
  | .element _ _ children void _ => void → children = []
  | _ => True

/-! ## Acts of lists -/

@[simp] theorem acts_nil : acts [] = [] := rfl

theorem acts_append (p q : Plan) : acts (p ++ q) = acts p ++ acts q := by
  induction p with
  | nil => simp
  | cons op rest ih =>
    simp only [acts, List.cons_append, walkPlan, List.filterMap_append] at ih ⊢
    rw [ih, List.append_assoc]

theorem acts_cons (op : Op) (rest : Plan) : acts (op :: rest) = acts [op] ++ acts rest :=
  acts_append [op] rest

theorem acts_single (op : Op) : acts [op] = op.walk.filterMap Op.act? := by
  rw [acts, walkPlan, walkPlan, List.append_nil]

@[simp] theorem acts_literal (text : String) : acts [.literal text] = [] := rfl

@[simp] theorem acts_attribute (e : Expr) : acts [.escaped e true] = [] := rfl

@[simp] theorem acts_escaped (e : Expr) : acts [.escaped e false] = [.escaped e] := rfl

@[simp] theorem acts_joined (parts : List Part) : acts [.joined parts] = [] := rfl

@[simp] theorem acts_raw (e : Expr) : acts [.raw e] = [.raw e] := rfl

@[simp] theorem acts_toggle (e : Expr) (body : Plan) : acts [.toggle e body] = acts body := by
  rw [acts_single]
  rfl

@[simp] theorem acts_branch (branches : List (Option Expr × Plan)) :
    acts [.branch branches] = .branch (branches.map Prod.fst) :: actsGuarded branches := by
  rw [acts_single]
  rfl

@[simp] theorem acts_loop (names : List String) (source : Expr) (body : Plan) :
    acts [.loop names source body] = .loop names source :: acts body := by
  rw [acts_single]
  rfl

@[simp] theorem acts_switch (subject : Expr) (arms : List (Option Expr × Plan)) :
    acts [.switch subject arms] = .switch subject (arms.map Prod.fst) :: actsGuarded arms := by
  rw [acts_single]
  rfl

@[simp] theorem acts_call (reference : Expr) (arguments : List (String × Content))
    (children : Option Plan) : acts [.call reference arguments children] =
      .call reference arguments :: (children.map acts).getD [] := by
  rw [acts_single]
  cases children <;> rfl

@[simp] theorem actsGuarded_nil : actsGuarded [] = [] := rfl

@[simp] theorem actsGuarded_cons (condition : Option Expr) (body : Plan)
    (rest : List (Option Expr × Plan)) :
    actsGuarded ((condition, body) :: rest) = acts body ++ actsGuarded rest := by
  simp [actsGuarded, acts, walkBranches]

/-! ## Translation -/

namespace Generate

theorem acts_attributeValue {content : Content} {op : Op} (h : attributeValue content = .ok op) :
    acts [op] = [] := by
  cases content with
  | literal text =>
    cases h
    exact acts_literal _
  | dynamic e isRaw =>
    cases h
    exact acts_attribute e
  | joined parts =>
    obtain ⟨ps, -, h⟩ := bind_eq_ok.mp h
    rw [← pure_eq_ok.mp h, joinParts]
    split
    · exact acts_literal _
    · exact acts_joined ps
  | toggle e => cases h
  | unknown => cases h

theorem acts_attributeOps {a : Attribute} {ops : Plan} (h : attributeOps a = .ok ops) :
    acts ops = [] := by
  rcases attributeOps_eq_ok h with rfl | ⟨e, rfl⟩ | ⟨op, hop, rfl⟩
  · exact acts_literal _
  · rw [acts_toggle, acts_literal]
  · rw [acts_cons, acts_cons op, acts_attributeValue hop, acts_literal, acts_literal]
    rfl

theorem acts_attributesOps {attributes : List Attribute} {ops : Plan}
    (h : attributesOps attributes = .ok ops) : acts ops = [] := by
  induction attributes generalizing ops with
  | nil =>
    cases h
    exact acts_nil
  | cons a rest ih =>
    obtain ⟨first, hfirst, h⟩ := bind_eq_ok.mp h
    obtain ⟨others, hothers, h⟩ := bind_eq_ok.mp h
    rw [← pure_eq_ok.mp h, acts_append, acts_attributeOps hfirst, ih hothers]
    rfl

theorem acts_textOp {content : Content} {op : Op} (h : textOp content = .ok op)
    (place : Option Location) : acts [op] = (Node.act? (.text content place)).toList := by
  cases content with
  | literal text =>
    cases h
    exact acts_literal _
  | dynamic e isRaw =>
    cases isRaw <;> cases h
    · exact acts_escaped e
    · exact acts_raw e
  | _ => cases h

mutual

theorem acts_node (n : Node) (hvoid : ∀ m ∈ n.walk, m.VoidIsEmpty) {ops : Plan}
    (h : node n = .ok ops) : acts ops = n.walk.filterMap Node.act? := by
  match n, hvoid with
  | .element name attributes children void place, hvoid =>
    rw [Node.walk, List.forall_mem_cons] at hvoid
    rw [node] at h
    obtain ⟨inTag, hinTag, h⟩ := bind_eq_ok.mp h
    have hopening : acts (.literal ("<" ++ name) :: inTag ++ [.literal ">"]) = [] := by
      rw [List.cons_append, acts_cons, acts_append, acts_attributesOps hinTag, acts_literal,
        acts_literal]
      rfl
    have hwalk : (Node.element name attributes children void place).walk.filterMap Node.act? =
        treeActs children := by
      rw [Node.walk, List.filterMap_cons, treeActs]
      rfl
    rw [hwalk]
    -- a void element is written without its children, and has none
    cases void with
    | true =>
      cases h
      rw [hopening, hvoid.1 rfl]
      simp [treeActs, walk]
    | false =>
      obtain ⟨inside, hinside, h⟩ := bind_eq_ok.mp h
      rw [← pure_eq_ok.mp h, acts_append, acts_append, hopening, acts_literal,
        acts_nodes children hvoid.2 hinside, List.nil_append, List.append_nil]
  | .text content place, _ =>
    rw [node] at h
    obtain ⟨op, hop, h⟩ := bind_eq_ok.mp h
    rw [← pure_eq_ok.mp h, acts_textOp hop place, Node.walk_text, List.filterMap_cons]
    cases (Node.text content place).act? <;> rfl
  | .doctype place, _ =>
    rw [node] at h
    cases h
    rw [acts_literal, Node.walk_doctype]
    rfl
  | .component reference arguments [] place, _ =>
    rw [node] at h
    cases h
    rw [acts_call, Node.walk, List.filterMap_cons, walk]
    rfl
  | .component reference arguments (child :: children) place, hvoid =>
    rw [Node.walk, List.forall_mem_cons, walk, List.forall_mem_append] at hvoid
    rw [node] at h
    obtain ⟨first, hfirst, h⟩ := bind_eq_ok.mp h
    obtain ⟨others, hothers, h⟩ := bind_eq_ok.mp h
    rw [← pure_eq_ok.mp h, acts_call, Option.map_some, Option.getD_some, acts_append,
      acts_node child hvoid.2.1 hfirst, acts_nodes children hvoid.2.2 hothers, Node.walk,
      List.filterMap_cons, walk, List.filterMap_append]
    rfl
  | .choice branches place, hvoid =>
    rw [Node.walk, List.forall_mem_cons] at hvoid
    rw [node] at h
    obtain ⟨plans, hplans, h⟩ := bind_eq_ok.mp h
    obtain ⟨hconditions, hacts⟩ := acts_guarded branches hvoid.2 hplans
    rw [← pure_eq_ok.mp h, acts_branch, hconditions, hacts, Node.walk, List.filterMap_cons]
    rfl
  | .each names source body place, hvoid =>
    rw [Node.walk, List.forall_mem_cons] at hvoid
    rw [node] at h
    obtain ⟨plan, hplan, h⟩ := bind_eq_ok.mp h
    rw [← pure_eq_ok.mp h, acts_loop, acts_nodes body hvoid.2 hplan, Node.walk, List.filterMap_cons]
    rfl
  | .cases subject arms place, hvoid =>
    rw [Node.walk, List.forall_mem_cons] at hvoid
    rw [node] at h
    obtain ⟨plans, hplans, h⟩ := bind_eq_ok.mp h
    obtain ⟨hpatterns, hacts⟩ := acts_guarded arms hvoid.2 hplans
    rw [← pure_eq_ok.mp h, acts_switch, hpatterns, hacts, Node.walk, List.filterMap_cons]
    rfl
  | .unknown, _ =>
    rw [node] at h
    cases h

/-- **The acts of a plan are those that its tree asks for**, in document order. -/
theorem acts_nodes (l : List Node) (hvoid : ∀ m ∈ walk l, m.VoidIsEmpty) {plan : Plan}
    (h : nodes l = .ok plan) : acts plan = treeActs l := by
  match l, hvoid with
  | [], _ =>
    rw [nodes] at h
    cases h
    simp [treeActs, walk]
  | n :: rest, hvoid =>
    rw [walk, List.forall_mem_append] at hvoid
    rw [nodes] at h
    obtain ⟨first, hfirst, h⟩ := bind_eq_ok.mp h
    obtain ⟨others, hothers, h⟩ := bind_eq_ok.mp h
    rw [← pure_eq_ok.mp h, acts_append, acts_node n hvoid.1 hfirst, acts_nodes rest hvoid.2 hothers,
      treeActs, treeActs, walk, List.filterMap_append]

theorem acts_guarded (l : List (Option Expr × List Node))
    (hvoid : ∀ m ∈ walkBodies l, m.VoidIsEmpty) {plans : List (Option Expr × Plan)}
    (h : guarded l = .ok plans) :
    plans.map Prod.fst = l.map Prod.fst ∧ actsGuarded plans = bodyActs l := by
  match l, hvoid with
  | [], _ =>
    rw [guarded] at h
    cases h
    simp [bodyActs, walkBodies]
  | (condition, body) :: rest, hvoid =>
    rw [walkBodies, List.forall_mem_append] at hvoid
    rw [guarded] at h
    obtain ⟨plan, hplan, h⟩ := bind_eq_ok.mp h
    obtain ⟨others, hothers, h⟩ := bind_eq_ok.mp h
    obtain ⟨hmore, hrest⟩ := acts_guarded rest hvoid.2 hothers
    rw [← pure_eq_ok.mp h, actsGuarded_cons, acts_nodes body hvoid.1 hplan, hrest, List.map_cons,
      List.map_cons, hmore, bodyActs, bodyActs, walkBodies, List.filterMap_append, treeActs]
    exact ⟨rfl, rfl⟩

end

end Generate

/-! ## Accepted trees -/

namespace Schema.Registry

variable (r : Registry)

theorem map_fst_markBodies (bodies : List (Option Expr × List Node)) :
    (r.markBodies bodies).map Prod.fst = bodies.map Prod.fst := by
  induction bodies with
  | nil => rw [markBodies]
  | cons b rest ih =>
    obtain ⟨condition, body⟩ := b
    rw [markBodies, List.map_cons, List.map_cons, ih]

theorem act?_markNode (n : Node) : (r.markNode n).act? = n.act? := by
  cases n with
  | choice branches place => rw [markNode, Node.act?, Node.act?, map_fst_markBodies]
  | cases subject arms place => rw [markNode, Node.act?, Node.act?, map_fst_markBodies]
  | element | component | each => rw [markNode]; rfl
  | text | doctype | unknown => rfl

theorem voidIsEmpty_markNode {n : Node} (h : r.nodeViolations n = []) :
    (r.markNode n).VoidIsEmpty := by
  cases n with
  | element name attributes children void place =>
    cases hentry : r.lookup name with
    | none => simp [nodeViolations, hentry] at h
    | some entry =>
      rw [markNode, hentry]
      intro hvoid
      have hchildren : children = [] := by
        by_contra hne
        simp [nodeViolations, hentry, show entry.isVoid = true from hvoid, hne] at h
      rw [hchildren, mark]
  | component | choice | each | cases => rw [markNode]; trivial
  | text | doctype | unknown => trivial

variable {r}

/-- An accepted tree asks for the same acts as the tree that was checked, and its void elements have
no children. -/
theorem acts_check {nodes tree : List Node} (h : r.check nodes = .ok tree) :
    treeActs tree = treeActs nodes ∧ ∀ n ∈ walk tree, n.VoidIsEmpty := by
  obtain ⟨hnone, rfl⟩ := r.check_eq_ok.mp h
  rw [treeActs, walk_mark, List.filterMap_map]
  refine ⟨List.filterMap_congr fun n _ => act?_markNode r n, fun m hm => ?_⟩
  obtain ⟨n, hn, rfl⟩ := List.mem_map.mp hm
  exact voidIsEmpty_markNode r (List.flatMap_eq_nil_iff.mp hnone n hn)

end Schema.Registry

end Stencil
