import Stencil.Tree.Basic

/-!
# Nodes in document order

`walk` lists all nodes of a tree, each before what it holds.
-/

namespace Stencil

mutual

/-- A node and everything below it. -/
def Node.walk : Node → List Node
  | node@(.element _ _ children _ _) => node :: walk children
  | node@(.component _ _ children _) => node :: walk children
  | node@(.choice branches _) => node :: walkBodies branches
  | node@(.each _ _ body _) => node :: walk body
  | node@(.cases _ arms _) => node :: walkBodies arms
  | node => [node]

/-- All nodes of a list of nodes. -/
def walk : List Node → List Node
  | [] => []
  | node :: rest => node.walk ++ walk rest

/-- All nodes in the bodies of a control block. -/
def walkBodies : List (Option Expr × List Node) → List Node
  | [] => []
  | (_, body) :: rest => walk body ++ walkBodies rest

end

theorem Node.mem_walk_self (n : Node) : n ∈ n.walk := by
  cases n <;> simp [Node.walk]

end Stencil
