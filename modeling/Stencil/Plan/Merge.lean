import Stencil.Plan.Generate

/-!
# Merging plans

A plan as it was generated has many small literals. Merging joins neighbouring literals, drops
empty ones and control blocks with nothing in them, and decides branches whose conditions are
constants, at every depth.
-/

namespace Stencil

namespace Merge

/-- Drop empty literals and join neighbouring ones. -/
def joinLiterals : Plan → Plan
  | [] => []
  | op :: rest =>
    match op.literal? with
    | none => op :: joinLiterals rest
    | some first =>
      if first.isEmpty then joinLiterals rest
      else
        match joinLiterals rest with
        | [] => [op]
        | next :: more =>
          match next.literal? with
          | some second => .literal (first ++ second) :: more
          | none => op :: next :: more

/-- Drop branches whose condition is a false constant, and everything after a branch that is
certain to be taken if it is reached. -/
def prune : List (Option Expr × Plan) → List (Option Expr × Plan)
  | [] => []
  | (none, body) :: _ => [(none, body)]
  | (some condition, body) :: rest =>
    match condition.constant? with
    | none => (some condition, body) :: prune rest
    | some value => if value.truth then [(none, body)] else prune rest

/-- An operation of control, or nothing if it has no plan to run. -/
def unlessIdle (op : Op) : Plan :=
  if op.plans.all List.isEmpty then [] else [op]

/-- What remains of a branch: the plan that is certain to be taken, or the branches in question. -/
def resolve (branches : List (Option Expr × Plan)) : Plan :=
  match prune branches with
  | [] => []
  | (none, body) :: _ => body
  | remaining => unlessIdle (.branch remaining)

mutual

/-- The operations that an operation comes to, the plans in it merged. -/
def simplifyOp : Op → Plan
  | .branch branches => resolve (mergeGuarded branches)
  | .loop names source body => unlessIdle (.loop names source (joinLiterals (simplify body)))
  | .switch subject arms => unlessIdle (.switch subject (mergeGuarded arms))
  | .toggle expr body => unlessIdle (.toggle expr (joinLiterals (simplify body)))
  | .call reference arguments (some body) =>
    [.call reference arguments (some (joinLiterals (simplify body)))]
  | op => [op]

/-- The operations that a plan comes to, before literals are joined. -/
def simplify : List Op → Plan
  | [] => []
  | op :: rest => simplifyOp op ++ simplify rest

/-- The guarded plans, each merged. -/
def mergeGuarded : List (Option Expr × List Op) → List (Option Expr × Plan)
  | [] => []
  | (condition, body) :: rest => (condition, joinLiterals (simplify body)) :: mergeGuarded rest

end

end Merge

/-- The plan with literals merged at every depth. -/
def Plan.merge (plan : Plan) : Plan :=
  Merge.joinLiterals (Merge.simplify plan)

/-- The plan of a tree. -/
def Plan.ofTree (nodes : List Node) : Except PlanError Plan := do
  return (← Generate.nodes nodes).merge

end Stencil
