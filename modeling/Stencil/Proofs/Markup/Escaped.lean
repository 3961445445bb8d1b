import Stencil.Proofs.Markup.Tags
import Stencil.Proofs.Merging.Heads

/-!
# Plans without trusted markup

A tree that has neither trusted markup nor components has a plan without them, and merging puts none
in.
-/

namespace Stencil

/-- Whether the operation is neither trusted markup nor a component. -/
def Op.isEscaped : Op → Bool
  | .raw _ => false
  | .call .. => false
  | _ => true

/-- An operation is the first in its walk. -/
theorem Op.mem_walk (op : Op) : op ∈ op.walk := by
  unfold Op.walk
  split <;> simp

theorem Op.isEscaped_head (op : Op) : op.head.isEscaped = op.isEscaped := by
  cases op <;> rfl

/-- Whether none of the operations of a plan is trusted markup or a component. -/
def Plan.IsEscaped (plan : Plan) : Prop :=
  ∀ op ∈ walkPlan plan, op.isEscaped

theorem Plan.isEscaped_iff {plan : Plan} : plan.IsEscaped ↔ ∀ op ∈ heads plan, op.isEscaped := by
  constructor
  · intro h head hhead
    obtain ⟨op, hop, rfl⟩ := List.mem_map.mp hhead
    rw [Op.isEscaped_head]
    exact h op hop
  · intro h op hop
    rw [← Op.isEscaped_head]
    exact h _ (List.mem_map_of_mem hop)

/-- Merging puts no markup or components in. -/
theorem Plan.isEscaped_merge {plan : Plan} (h : plan.IsEscaped) : plan.merge.IsEscaped :=
  isEscaped_iff.mpr fun op hop => isEscaped_iff.mp h op (Plan.heads_merge plan hop)

/-- Whether none of the operations of guarded plans is trusted markup or a component. -/
def AreEscaped (branches : List (Option Expr × Plan)) : Prop :=
  ∀ op ∈ walkBranches branches, op.isEscaped

namespace Plan

@[simp] theorem isEscaped_nil : Plan.IsEscaped [] := by
  simp [Plan.IsEscaped, walkPlan]

@[simp] theorem isEscaped_append (p q : Plan) :
    Plan.IsEscaped (p ++ q) ↔ p.IsEscaped ∧ q.IsEscaped := by
  simp only [isEscaped_iff, heads_append, List.forall_mem_append]

@[simp] theorem isEscaped_cons (op : Op) (rest : Plan) :
    Plan.IsEscaped (op :: rest) ↔ (∀ o ∈ op.walk, o.isEscaped) ∧ Plan.IsEscaped rest := by
  simp only [Plan.IsEscaped, walkPlan, List.forall_mem_append]

theorem isEscaped_branch {branches : List (Option Expr × Plan)} :
    Plan.IsEscaped [.branch branches] ↔ AreEscaped branches := by
  rw [Plan.IsEscaped, walkPlan, walkPlan, List.append_nil, Op.walk, List.forall_mem_cons]
  exact and_iff_right rfl

theorem isEscaped_loop {names : List String} {source : Expr} {body : Plan} :
    Plan.IsEscaped [.loop names source body] ↔ body.IsEscaped := by
  rw [Plan.IsEscaped, walkPlan, walkPlan, List.append_nil, Op.walk, List.forall_mem_cons]
  exact and_iff_right rfl

theorem isEscaped_switch {subject : Expr} {arms : List (Option Expr × Plan)} :
    Plan.IsEscaped [.switch subject arms] ↔ AreEscaped arms := by
  rw [Plan.IsEscaped, walkPlan, walkPlan, List.append_nil, Op.walk, List.forall_mem_cons]
  exact and_iff_right rfl

end Plan

/-! ## Plans of trees -/

namespace Generate

theorem isEscaped_attributeValue {c : Content} {op : Op} (h : attributeValue c = .ok op) :
    ∀ o ∈ op.walk, o.isEscaped := by
  cases c with
  | literal known =>
    cases h
    simp [Op.walk, Op.isEscaped]
  | dynamic e raw =>
    cases h
    simp [Op.walk, Op.isEscaped]
  | joined parts =>
    obtain ⟨parts, -, hparts⟩ := bind_eq_ok.mp h
    rw [← pure_eq_ok.mp hparts]
    unfold joinParts
    split <;> simp [Op.walk, Op.isEscaped]
  | toggle | unknown => cases h

theorem isEscaped_attributeOps {a : Attribute} {ops : Plan} (h : attributeOps a = .ok ops) :
    ops.IsEscaped := by
  rcases attributeOps_eq_ok h with rfl | ⟨e, rfl⟩ | ⟨op, hop, rfl⟩
  · simp [Op.walk, Op.isEscaped]
  · simp [Op.walk, Op.isEscaped, walkPlan]
  · simpa [Op.walk, Op.isEscaped] using isEscaped_attributeValue hop

theorem isEscaped_attributesOps {attributes : List Attribute} {ops : Plan}
    (h : attributesOps attributes = .ok ops) : ops.IsEscaped := by
  induction attributes generalizing ops with
  | nil =>
    cases h
    simp
  | cons a rest ih =>
    obtain ⟨first, hfirst, h⟩ := bind_eq_ok.mp h
    obtain ⟨others, hothers, h⟩ := bind_eq_ok.mp h
    rw [← pure_eq_ok.mp h, Plan.isEscaped_append]
    exact ⟨isEscaped_attributeOps hfirst, ih hothers⟩

theorem isEscaped_textOp {c : Content} {op : Op} (h : textOp c = .ok op) {place : Option Location}
    (hc : (Node.text c place).isEscaped) : ∀ o ∈ op.walk, o.isEscaped := by
  unfold textOp at h
  split at h
  · cases h
    simp [Op.walk, Op.isEscaped]
  · cases hc
  · cases h
    simp [Op.walk, Op.isEscaped]
  · cases h

mutual

theorem isEscaped_node (n : Node) (h : ∀ m ∈ n.walk, m.isEscaped) {plan : Plan}
    (hplan : node n = .ok plan) : plan.IsEscaped :=
  match n with
  | .element name attributes children void place => by
    rw [Node.walk] at h
    rw [node] at hplan
    obtain ⟨inTag, hinTag, hplan⟩ := bind_eq_ok.mp hplan
    have htag := isEscaped_attributesOps hinTag
    cases void with
    | true =>
      rw [← pure_eq_ok.mp hplan]
      simpa [Op.walk, Op.isEscaped] using htag
    | false =>
      obtain ⟨inside, hinside, hplan⟩ := bind_eq_ok.mp hplan
      have hbody := isEscaped_nodes children (fun m hm => h m (List.mem_cons_of_mem _ hm)) hinside
      rw [← pure_eq_ok.mp hplan]
      simpa [Op.walk, Op.isEscaped] using ⟨htag, hbody⟩
  | .text content place => by
    rw [node] at hplan
    obtain ⟨op, hop, hplan⟩ := bind_eq_ok.mp hplan
    have hself : (Node.text content place).isEscaped := h _ (by rw [Node.walk] <;> simp)
    rw [← pure_eq_ok.mp hplan]
    simpa using isEscaped_textOp hop hself
  | .doctype place => by
    rw [node] at hplan
    cases hplan
    simp [Op.walk, Op.isEscaped]
  | .component reference arguments children place => by
    rw [Node.walk] at h
    exact absurd (h _ (List.mem_cons_self ..)) Bool.false_ne_true
  | .choice branches place => by
    rw [Node.walk] at h
    rw [node] at hplan
    obtain ⟨plans, hplans, hplan⟩ := bind_eq_ok.mp hplan
    rw [← pure_eq_ok.mp hplan, Plan.isEscaped_branch]
    exact isEscaped_guarded branches (fun m hm => h m (List.mem_cons_of_mem _ hm)) hplans
  | .each names source body place => by
    rw [Node.walk] at h
    rw [node] at hplan
    obtain ⟨inside, hinside, hplan⟩ := bind_eq_ok.mp hplan
    rw [← pure_eq_ok.mp hplan, Plan.isEscaped_loop]
    exact isEscaped_nodes body (fun m hm => h m (List.mem_cons_of_mem _ hm)) hinside
  | .cases subject arms place => by
    rw [Node.walk] at h
    rw [node] at hplan
    obtain ⟨plans, hplans, hplan⟩ := bind_eq_ok.mp hplan
    rw [← pure_eq_ok.mp hplan, Plan.isEscaped_switch]
    exact isEscaped_guarded arms (fun m hm => h m (List.mem_cons_of_mem _ hm)) hplans
  | .unknown => by
    rw [node] at hplan
    cases hplan

/-- A tree without trusted markup and components has a plan without them. -/
theorem isEscaped_nodes (tree : List Node) (h : ∀ m ∈ walk tree, m.isEscaped) {plan : Plan}
    (hplan : nodes tree = .ok plan) : plan.IsEscaped :=
  match tree with
  | [] => by
    rw [nodes] at hplan
    cases hplan
    simp
  | first :: rest => by
    rw [walk] at h
    obtain ⟨hfirst, hrest⟩ := List.forall_mem_append.mp h
    rw [nodes] at hplan
    obtain ⟨p, hp, hplan⟩ := bind_eq_ok.mp hplan
    obtain ⟨q, hq, hplan⟩ := bind_eq_ok.mp hplan
    rw [← pure_eq_ok.mp hplan, Plan.isEscaped_append]
    exact ⟨isEscaped_node first hfirst hp, isEscaped_nodes rest hrest hq⟩

theorem isEscaped_guarded (bodies : List (Option Expr × List Node))
    (h : ∀ m ∈ walkBodies bodies, m.isEscaped) {plans : List (Option Expr × Plan)}
    (hplans : guarded bodies = .ok plans) : AreEscaped plans :=
  match bodies with
  | [] => by
    rw [guarded] at hplans
    cases hplans
    simp [AreEscaped, walkBranches]
  | (condition, body) :: rest => by
    rw [walkBodies] at h
    obtain ⟨hbody, hrest⟩ := List.forall_mem_append.mp h
    rw [guarded] at hplans
    obtain ⟨p, hp, hplans⟩ := bind_eq_ok.mp hplans
    obtain ⟨others, hothers, hplans⟩ := bind_eq_ok.mp hplans
    rw [← pure_eq_ok.mp hplans, AreEscaped, walkBranches]
    exact List.forall_mem_append.mpr
      ⟨isEscaped_nodes body hbody hp, isEscaped_guarded rest hrest hothers⟩

end

end Generate

end Stencil
