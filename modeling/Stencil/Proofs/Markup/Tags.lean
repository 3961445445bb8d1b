import Stencil.Proofs.Markup.Escape
import Stencil.Proofs.Markup.Spelling
import Stencil.Proofs.Results
import Stencil.Tree.Walk

/-!
# Trees are translated to well-formed markup

Whatever a plan that a tree is translated to may write, a scanner reads it and is then where it was
before, with the same elements open. This takes a tree whose names can stand in tags, whose elements
are marked as void exactly if the scanner takes them to be, and that has neither trusted markup nor
components.
-/

namespace Stencil

open Markup

namespace Node

/-- Whether the node is an element with names that can stand in its tag, or no element. -/
def HasNames : Node → Prop
  | .element name attributes _ _ _ =>
    IsTagName name.toList ∧ ∀ a ∈ attributes, IsName a.name.toList
  | _ => True

/-- Whether the node is an element that is marked as void if it is one, or no element. -/
def IsMarked (isVoid : List Char → Bool) : Node → Prop
  | .element name _ _ void _ => void = isVoid name.toList
  | _ => True

/-- Whether the node is neither a component nor text that is not escaped. -/
def isEscaped : Node → Bool
  | .component .. => false
  | .text (.dynamic _ raw) _ => !raw
  | _ => true

/-- What a scanner needs of a node. -/
structure IsSound (isVoid : List Char → Bool) (n : Node) : Prop where
  names : n.HasNames
  marked : n.IsMarked isVoid
  escaped : n.isEscaped

end Node

namespace Generate

variable {isVoid : List Char → Bool}

/-! ## Attributes -/

theorem inert_attributeValue {c : Content} {op : Op} (h : attributeValue c = .ok op) {text : String}
    (ht : op.Spells text) : Inert text.toList := by
  cases c with
  | literal known =>
    cases h
    rw [Op.Spells] at ht
    exact ht ▸ Text.inert_escape known
  | dynamic e raw =>
    cases h
    rwa [Op.Spells] at ht
  | joined parts =>
    obtain ⟨parts, -, hparts⟩ := bind_eq_ok.mp h
    rw [← pure_eq_ok.mp hparts] at ht
    unfold joinParts at ht
    split at ht
    · rw [Op.Spells] at ht
      exact ht ▸ Text.inert_escape _
    · rwa [Op.Spells] at ht
  | toggle | unknown => cases h

theorem scan_attributeOps {a : Attribute} {ops : Plan} (h : attributeOps a = .ok ops)
    (hname : IsName a.name.toList) {text : String} (ht : spellsPlan ops text) {tag : List Char}
    {place : Place} (hp : place.InTag tag) (stack : List (List Char)) :
    ∃ next : Place, next.InTag tag ∧
      scan isVoid text.toList ⟨place, stack⟩ = some ⟨next, stack⟩ := by
  have hbare : scan isVoid (" " ++ a.name).toList ⟨place, stack⟩ =
      some ⟨.attributeName tag, stack⟩ := by
    rw [String.toList_append]
    exact scan_attribute hname hp stack
  rcases attributeOps_eq_ok h with rfl | ⟨e, rfl⟩ | ⟨op, hop, rfl⟩
  · rw [spells_singleton, Op.Spells] at ht
    exact ⟨_, .attributeName, ht ▸ hbare⟩
  · rw [spells_singleton, Op.Spells, spells_singleton, Op.Spells] at ht
    rcases ht with rfl | rfl
    · exact ⟨place, hp, rfl⟩
    · exact ⟨_, .attributeName, hbare⟩
  · obtain ⟨_, hrest, rfl⟩ := spells_literal_cons.mp ht
    obtain ⟨value, quote, hvalue, hquote, rfl⟩ := spells_cons.mp hrest
    rw [spells_singleton, Op.Spells] at hquote
    subst hquote
    refine ⟨_, .valueEnd, ?_⟩
    have htext : (" " ++ a.name ++ "=\"" ++ (value ++ "\"")).toList =
        ' ' :: a.name.toList ++ '=' :: '"' :: value.toList ++ ['"'] := by
      simp
    exact (congrArg (scan isVoid · ⟨place, stack⟩) htext).trans
      (scan_assignment hname (inert_attributeValue hop hvalue) hp stack)

theorem scan_attributesOps {attributes : List Attribute} {ops : Plan}
    (h : attributesOps attributes = .ok ops) (hnames : ∀ a ∈ attributes, IsName a.name.toList)
    {text : String} (ht : spellsPlan ops text) {tag : List Char} {place : Place}
    (hp : place.InTag tag) (stack : List (List Char)) :
    ∃ next : Place, next.InTag tag ∧
      scan isVoid text.toList ⟨place, stack⟩ = some ⟨next, stack⟩ := by
  induction attributes generalizing ops text place with
  | nil =>
    cases h
    rw [spells_nil] at ht
    subst ht
    exact ⟨place, hp, rfl⟩
  | cons a rest ih =>
    obtain ⟨first, hfirst, h⟩ := bind_eq_ok.mp h
    obtain ⟨others, hothers, h⟩ := bind_eq_ok.mp h
    rw [← pure_eq_ok.mp h] at ht
    obtain ⟨s, t, hs, hmore, rfl⟩ := spells_append.mp ht
    obtain ⟨place', hp', hscan⟩ := scan_attributeOps hfirst (hnames a (List.mem_cons_self ..)) hs hp
      stack
    obtain ⟨place'', hp'', hscan'⟩ := ih hothers (fun b hb => hnames b (List.mem_cons_of_mem _ hb))
      hmore hp'
    refine ⟨place'', hp'', ?_⟩
    rw [String.toList_append]
    exact scan_append_of hscan hscan'

/-! ## Nodes -/

theorem inert_textOp {c : Content} {op : Op} (h : textOp c = .ok op) {place : Option Location}
    (hc : (Node.text c place).isEscaped) {text : String} (ht : op.Spells text) :
    Inert text.toList := by
  unfold textOp at h
  split at h
  · cases h
    rw [Op.Spells] at ht
    exact ht ▸ Text.inert_escape _
  · cases hc
  · cases h
    rwa [Op.Spells] at ht
  · cases h

theorem scan_element {name : String} {inTag inside : Plan} {attributes : List Attribute}
    (hname : IsTagName name.toList) (hnames : ∀ a ∈ attributes, IsName a.name.toList)
    (hinTag : attributesOps attributes = .ok inTag) {text : String}
    (ht : spellsPlan (.literal ("<" ++ name) :: inTag ++ [.literal ">"] ++ inside) text)
    (stack : List (List Char)) :
    ∃ more, spellsPlan inside more ∧ scan isVoid text.toList ⟨.text, stack⟩ =
      scan isVoid more.toList
        ⟨.text, if isVoid name.toList then stack else name.toList :: stack⟩ := by
  obtain ⟨tag, more, htag, hmore, rfl⟩ := spells_append.mp ht
  obtain ⟨opening, closing, hopening, hclosing, rfl⟩ := spells_append.mp htag
  obtain ⟨tags, htags, rfl⟩ := spells_literal_cons.mp hopening
  rw [spells_singleton, Op.Spells] at hclosing
  subst hclosing
  refine ⟨more, hmore, ?_⟩
  have hopen : scan isVoid ("<" ++ name).toList ⟨.text, stack⟩ =
      some ⟨.startName name.toList, stack⟩ := by
    rw [String.toList_append]
    exact scan_opening hname stack
  -- the name opens a tag, the attributes stay in it, and the bracket leaves it
  obtain ⟨place, hp, htags⟩ := scan_attributesOps hinTag hnames htags .startName stack
  have hread := scan_append_of (scan_append_of hopen htags) (scan_enter hp stack)
  rw [String.toList_append, scan_append, String.toList_append, String.toList_append]
  exact congrArg (·.bind (scan isVoid more.toList)) hread

mutual

theorem scan_node (n : Node) (h : ∀ m ∈ n.walk, m.IsSound isVoid) {plan : Plan}
    (hplan : node n = .ok plan) {text : String} (ht : spellsPlan plan text)
    (stack : List (List Char)) :
    scan isVoid text.toList ⟨.text, stack⟩ = some ⟨.text, stack⟩ :=
  match n with
  | .element name attributes children void place => by
    rw [Node.walk] at h
    obtain ⟨⟨hname, hnames⟩, hvoid, -⟩ := h _ (List.mem_cons_self ..)
    replace hvoid : void = isVoid name.toList := hvoid
    rw [node] at hplan
    obtain ⟨inTag, hinTag, hplan⟩ := bind_eq_ok.mp hplan
    cases void with
    | true =>
      rw [← pure_eq_ok.mp hplan, ← List.append_nil (_ ++ _)] at ht
      obtain ⟨more, hmore, hscan⟩ := scan_element hname hnames hinTag ht stack
      rw [spells_nil] at hmore
      rw [hscan, hmore, ← hvoid]
      rfl
    | false =>
      obtain ⟨inside, hinside, hplan⟩ := bind_eq_ok.mp hplan
      rw [← pure_eq_ok.mp hplan, List.append_assoc] at ht
      obtain ⟨more, hmore, hscan⟩ := scan_element hname hnames hinTag ht stack
      obtain ⟨body, closing, hbody, hclosing, rfl⟩ := spells_append.mp hmore
      rw [spells_singleton, Op.Spells] at hclosing
      have hclose : closing.toList = '<' :: '/' :: name.toList ++ ['>'] := by
        rw [hclosing]
        show ("</" ++ name ++ ">").toList = _
        simp
      rw [hscan, ← hvoid, String.toList_append, hclose]
      exact scan_append_of (scan_nodes children (fun m hm => h m (List.mem_cons_of_mem _ hm))
        hinside hbody (name.toList :: stack)) (scan_closing hname stack)
  | .text content place => by
    obtain ⟨-, -, hescaped⟩ := h _ (by rw [Node.walk]; exact List.mem_singleton_self _; all_goals nofun)
    rw [node] at hplan
    obtain ⟨op, hop, hplan⟩ := bind_eq_ok.mp hplan
    rw [← pure_eq_ok.mp hplan, spells_singleton] at ht
    exact scan_inert (inert_textOp hop hescaped ht) .text stack
  | .doctype place => by
    rw [node] at hplan
    cases hplan
    rw [spells_singleton, Op.Spells] at ht
    subst ht
    exact scan_doctype stack
  | .component reference arguments children place => by
    rw [Node.walk] at h
    exact absurd (h _ (List.mem_cons_self ..)).escaped Bool.false_ne_true
  | .choice branches place => by
    rw [Node.walk] at h
    rw [node] at hplan
    obtain ⟨plans, hplans, hplan⟩ := bind_eq_ok.mp hplan
    rw [← pure_eq_ok.mp hplan, spells_singleton, Op.Spells] at ht
    rcases ht with rfl | ht
    · rfl
    · exact scan_guarded branches (fun m hm => h m (List.mem_cons_of_mem _ hm)) hplans ht stack
  | .each names source body place => by
    rw [Node.walk] at h
    rw [node] at hplan
    obtain ⟨inside, hinside, hplan⟩ := bind_eq_ok.mp hplan
    rw [← pure_eq_ok.mp hplan, spells_singleton, Op.Spells] at ht
    -- every round of the loop is back where it began
    induction ht with
    | done => rfl
    | more hfirst _ ih =>
      rw [String.toList_append]
      exact scan_append_of (scan_nodes body (fun m hm => h m (List.mem_cons_of_mem _ hm)) hinside
        hfirst stack) ih
  | .cases subject arms place => by
    rw [Node.walk] at h
    rw [node] at hplan
    obtain ⟨plans, hplans, hplan⟩ := bind_eq_ok.mp hplan
    rw [← pure_eq_ok.mp hplan, spells_singleton, Op.Spells] at ht
    rcases ht with rfl | ht
    · rfl
    · exact scan_guarded arms (fun m hm => h m (List.mem_cons_of_mem _ hm)) hplans ht stack
  | .unknown => by
    rw [node] at hplan
    cases hplan

/-- **What a tree is translated to reads as a whole**: a scanner is back where it was, with the same
elements open. -/
theorem scan_nodes (tree : List Node) (h : ∀ m ∈ walk tree, m.IsSound isVoid) {plan : Plan}
    (hplan : nodes tree = .ok plan) {text : String} (ht : spellsPlan plan text)
    (stack : List (List Char)) :
    scan isVoid text.toList ⟨.text, stack⟩ = some ⟨.text, stack⟩ :=
  match tree with
  | [] => by
    rw [nodes] at hplan
    cases hplan
    rw [spells_nil] at ht
    subst ht
    rfl
  | first :: rest => by
    rw [walk] at h
    rw [nodes] at hplan
    obtain ⟨p, hp, hplan⟩ := bind_eq_ok.mp hplan
    obtain ⟨q, hq, hplan⟩ := bind_eq_ok.mp hplan
    rw [← pure_eq_ok.mp hplan] at ht
    obtain ⟨s, t, hs, hmore, rfl⟩ := spells_append.mp ht
    rw [String.toList_append]
    exact scan_append_of
      (scan_node first (fun m hm => h m (List.mem_append_left _ hm)) hp hs stack)
      (scan_nodes rest (fun m hm => h m (List.mem_append_right _ hm)) hq hmore stack)

theorem scan_guarded (bodies : List (Option Expr × List Node))
    (h : ∀ m ∈ walkBodies bodies, m.IsSound isVoid) {plans : List (Option Expr × Plan)}
    (hplans : guarded bodies = .ok plans) {text : String} (ht : spellsGuarded plans text)
    (stack : List (List Char)) :
    scan isVoid text.toList ⟨.text, stack⟩ = some ⟨.text, stack⟩ :=
  match bodies with
  | [] => by
    rw [guarded] at hplans
    cases hplans
    exact absurd ht (by rw [spellsGuarded]; exact id)
  | (condition, body) :: rest => by
    rw [walkBodies] at h
    rw [guarded] at hplans
    obtain ⟨p, hp, hplans⟩ := bind_eq_ok.mp hplans
    obtain ⟨others, hothers, hplans⟩ := bind_eq_ok.mp hplans
    rw [← pure_eq_ok.mp hplans, spellsGuarded] at ht
    rcases ht with ht | ht
    · exact scan_nodes body (fun m hm => h m (List.mem_append_left _ hm)) hp ht stack
    · exact scan_guarded rest (fun m hm => h m (List.mem_append_right _ hm)) hothers ht stack

end

end Generate

end Stencil
