import Stencil.Proofs.Order.Acts

/-!
# Formed trees are translated

A tree whose nodes are formed has a plan, whatever its void marks. What the plan gives to components
are values that attributes can have.
-/

namespace Stencil

variable {raw : Prop}

/-! ## Void marks -/

theorem Schema.Registry.fits_markNode (r : Schema.Registry) {n : Node} (h : n.Fits raw) :
    (r.markNode n).Fits raw := by
  cases n with
  | choice branches place =>
    obtain ⟨hne, hsome⟩ := h
    have hmap := r.map_fst_markBodies branches
    rw [markNode]
    constructor
    · intro hnil
      rw [hnil, List.map_nil] at hmap
      exact hne (List.map_eq_nil_iff.mp hmap.symm)
    · intro b hb
      have hfst : b.1 ∈ (branches.dropLast).map Prod.fst := by
        rw [List.map_dropLast, ← hmap, ← List.map_dropLast]
        exact List.mem_map_of_mem hb
      obtain ⟨b', hb', heq⟩ := List.mem_map.mp hfst
      exact heq ▸ hsome b' hb'
  | element | component | each | cases => rwa [markNode]
  | text | doctype | unknown => exact h

/-- What the nodes of a tree fulfil, the nodes of the accepted tree fulfil. -/
theorem Schema.Registry.fits_check {r : Schema.Registry} {nodes tree : List Node}
    (h : r.check nodes = .ok tree) (hnodes : ∀ n ∈ walk nodes, n.Fits raw) :
    ∀ n ∈ walk tree, n.Fits raw := by
  rw [(r.walk_check h).1]
  intro m hm
  obtain ⟨n, hn, rfl⟩ := List.mem_map.mp hm
  exact r.fits_markNode (hnodes n hn)

namespace Generate

/-! ## Translation -/

theorem exists_part {c : Content} (h : c.IsPart) : ∃ p, part c = .ok p := by
  cases c with
  | literal text => exact ⟨_, rfl⟩
  | dynamic e isRaw => exact ⟨_, rfl⟩
  | _ => cases h

theorem exists_parts {parts : List Content} (h : ∀ c ∈ parts, c.IsPart) :
    ∃ ps, parts.mapM part = .ok ps := by
  induction parts with
  | nil => exact ⟨[], List.mapM_nil⟩
  | cons c rest ih =>
    obtain ⟨hc, hrest⟩ := List.forall_mem_cons.mp h
    obtain ⟨p, hp⟩ := exists_part hc
    obtain ⟨ps, hps⟩ := ih hrest
    refine ⟨p :: ps, ?_⟩
    rw [List.mapM_cons, hp, hps]
    rfl

theorem exists_attributeOps {a : Attribute} (h : a.Formed) : ∃ ops, attributeOps a = .ok ops := by
  obtain ⟨name, value, place⟩ := a
  unfold attributeOps
  cases value with
  | toggle e =>
    dsimp only
    split <;> exact ⟨_, rfl⟩
  | literal text => exact ⟨_, rfl⟩
  | dynamic e isRaw => exact ⟨_, rfl⟩
  | joined parts =>
    obtain ⟨-, hparts, -⟩ := h
    obtain ⟨ps, hps⟩ := exists_parts hparts
    have hvalue : attributeValue (.joined parts) = .ok (joinParts ps) := by
      rw [attributeValue, hps]
      rfl
    dsimp only
    rw [hvalue]
    exact ⟨_, rfl⟩
  | unknown => cases h

theorem exists_attributesOps {attributes : List Attribute} (h : ∀ a ∈ attributes, a.Formed) :
    ∃ ops, attributesOps attributes = .ok ops := by
  induction attributes with
  | nil => exact ⟨[], rfl⟩
  | cons a rest ih =>
    obtain ⟨ha, hrest⟩ := List.forall_mem_cons.mp h
    obtain ⟨first, hfirst⟩ := exists_attributeOps ha
    obtain ⟨others, hothers⟩ := ih hrest
    refine ⟨first ++ others, ?_⟩
    rw [attributesOps, hfirst, hothers]
    rfl

theorem exists_textOp {content : Content} (h : content.IsText raw) :
    ∃ op, textOp content = .ok op := by
  cases content with
  | literal text => exact ⟨_, rfl⟩
  | dynamic e isRaw => cases isRaw <;> exact ⟨_, rfl⟩
  | _ => cases h

mutual

theorem exists_node (n : Node) (h : ∀ m ∈ n.walk, m.Fits raw) : ∃ ops, node n = .ok ops := by
  match n, h with
  | .element name attributes children void place, h =>
    rw [Node.walk, List.forall_mem_cons] at h
    obtain ⟨inTag, hinTag⟩ := exists_attributesOps h.1.2
    obtain ⟨inside, hinside⟩ := exists_nodes children h.2
    rw [node, hinTag, hinside]
    cases void <;> exact ⟨_, rfl⟩
  | .text content place, h =>
    rw [Node.walk_text, List.forall_mem_singleton] at h
    obtain ⟨op, hop⟩ := exists_textOp (show content.IsText raw from h)
    rw [node, hop]
    exact ⟨_, rfl⟩
  | .doctype place, _ =>
    rw [node]
    exact ⟨_, rfl⟩
  | .component reference arguments [] place, _ =>
    rw [node]
    exact ⟨_, rfl⟩
  | .component reference arguments (child :: children) place, h =>
    rw [Node.walk, List.forall_mem_cons, walk, List.forall_mem_append] at h
    obtain ⟨first, hfirst⟩ := exists_node child h.2.1
    obtain ⟨others, hothers⟩ := exists_nodes children h.2.2
    rw [node, hfirst, hothers]
    exact ⟨_, rfl⟩
  | .choice branches place, h =>
    rw [Node.walk, List.forall_mem_cons] at h
    obtain ⟨plans, hplans⟩ := exists_guarded branches h.2
    rw [node, hplans]
    exact ⟨_, rfl⟩
  | .each names source body place, h =>
    rw [Node.walk, List.forall_mem_cons] at h
    obtain ⟨plan, hplan⟩ := exists_nodes body h.2
    rw [node, hplan]
    exact ⟨_, rfl⟩
  | .cases subject arms place, h =>
    rw [Node.walk, List.forall_mem_cons] at h
    obtain ⟨plans, hplans⟩ := exists_guarded arms h.2
    rw [node, hplans]
    exact ⟨_, rfl⟩
  | .unknown, h =>
    rw [Node.walk_unknown, List.forall_mem_singleton] at h
    exact h.elim

theorem exists_nodes (l : List Node) (h : ∀ m ∈ walk l, m.Fits raw) :
    ∃ plan, nodes l = .ok plan := by
  match l, h with
  | [], _ =>
    rw [nodes]
    exact ⟨_, rfl⟩
  | n :: rest, h =>
    rw [walk, List.forall_mem_append] at h
    obtain ⟨first, hfirst⟩ := exists_node n h.1
    obtain ⟨others, hothers⟩ := exists_nodes rest h.2
    rw [nodes, hfirst, hothers]
    exact ⟨_, rfl⟩

theorem exists_guarded (l : List (Option Expr × List Node)) (h : ∀ m ∈ walkBodies l, m.Fits raw) :
    ∃ plans, guarded l = .ok plans := by
  match l, h with
  | [], _ =>
    rw [guarded]
    exact ⟨_, rfl⟩
  | (condition, body) :: rest, h =>
    rw [walkBodies, List.forall_mem_append] at h
    obtain ⟨plan, hplan⟩ := exists_nodes body h.1
    obtain ⟨others, hothers⟩ := exists_guarded rest h.2
    rw [guarded, hplan, hothers]
    exact ⟨_, rfl⟩

end

end Generate

/-! ## Arguments of components -/

/-- The arguments that the operation gives to a component are values that attributes can have. -/
def Op.HasValues : Op → Prop
  | .call _ arguments _ => ∀ a ∈ arguments, a.2.IsValue a.1
  | _ => True

/-- The plan gives values that attributes can have to all components that it calls. -/
theorem hasValues_nodes {tree : List Node} {plan : Plan} (h : Generate.nodes tree = .ok plan)
    (hvoid : ∀ n ∈ walk tree, n.VoidIsEmpty) (hfits : ∀ n ∈ walk tree, n.Fits raw) :
    ∀ op ∈ walkPlan plan, op.HasValues := by
  intro op hop
  cases op with
  | call reference arguments children =>
    have hact : Act.call reference arguments ∈ acts plan :=
      List.mem_filterMap.mpr ⟨_, hop, rfl⟩
    rw [Generate.acts_nodes tree hvoid h] at hact
    obtain ⟨n, hn, hask⟩ := List.mem_filterMap.mp hact
    have hn := hfits n hn
    unfold Node.act? at hask
    split at hask <;> cases hask
    intro a ha
    obtain ⟨b, hb, rfl⟩ := List.mem_map.mp ha
    exact hn.2 b hb
  | _ => trivial

end Stencil
