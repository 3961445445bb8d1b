import Stencil.Proofs.Markup.Tags
import Stencil.Template

/-!
# Void marks

A tree that was accepted has its elements marked as void exactly as the registry says, and is what
it was otherwise.
-/

namespace Stencil

open Markup

namespace Schema.Registry

variable (r : Registry)

/-- Whether a name is one of a void element. -/
def isVoid (name : List Char) : Bool :=
  (r.lookup (String.ofList name)).any Entry.isVoid

mutual

theorem walk_markNode (n : Node) : (r.markNode n).walk = n.walk.map r.markNode :=
  match n with
  | .element name attributes children void place => by
    rw [markNode, Node.walk, Node.walk, List.map_cons, markNode, walk_mark children]
  | .component reference arguments children place => by
    rw [markNode, Node.walk, Node.walk, List.map_cons, markNode, walk_mark children]
  | .choice branches place => by
    rw [markNode, Node.walk, Node.walk, List.map_cons, markNode, walk_markBodies branches]
  | .each names source body place => by
    rw [markNode, Node.walk, Node.walk, List.map_cons, markNode, walk_mark body]
  | .cases subject arms place => by
    rw [markNode, Node.walk, Node.walk, List.map_cons, markNode, walk_markBodies arms]
  | .text .. | .doctype _ | .unknown => by
    simp [markNode, Node.walk]

theorem walk_mark (nodes : List Node) : walk (r.mark nodes) = (walk nodes).map r.markNode :=
  match nodes with
  | [] => by simp [mark, walk]
  | n :: rest => by
    rw [mark, walk, walk, List.map_append, walk_markNode n, walk_mark rest]

theorem walk_markBodies (bodies : List (Option Expr × List Node)) :
    walkBodies (r.markBodies bodies) = (walkBodies bodies).map r.markNode :=
  match bodies with
  | [] => by simp [markBodies, walkBodies]
  | (condition, body) :: rest => by
    rw [markBodies, walkBodies, walkBodies, List.map_append, walk_mark body, walk_markBodies rest]

end

theorem hasNames_markNode (n : Node) : (r.markNode n).HasNames ↔ n.HasNames := by
  cases n <;> simp [markNode, Node.HasNames]

theorem isMarked_markNode {n : Node} (h : r.nodeViolations n = []) :
    (r.markNode n).IsMarked r.isVoid := by
  cases n with
  | element name attributes children void place =>
    simp only [markNode, Node.IsMarked, isVoid, String.ofList_toList]
    cases hentry : r.lookup name with
    | none => simp [nodeViolations, hentry] at h
    | some entry => rfl
  | _ => trivial

/-- **An accepted tree is marked**: it is made of the nodes of the tree that was checked, with the
void marks of the registry. -/
theorem walk_check {nodes tree : List Node} (h : r.check nodes = .ok tree) :
    walk tree = (walk nodes).map r.markNode ∧ ∀ n ∈ walk tree, n.IsMarked r.isVoid := by
  obtain ⟨hnone, rfl⟩ := r.check_eq_ok.mp h
  refine ⟨walk_mark r nodes, fun n hn => ?_⟩
  rw [walk_mark] at hn
  obtain ⟨m, hm, rfl⟩ := List.mem_map.mp hn
  exact isMarked_markNode r (List.flatMap_eq_nil_iff.mp hnone m hm)

end Schema.Registry

end Stencil
