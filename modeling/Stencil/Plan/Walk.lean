import Stencil.Plan.Basic

/-!
# Operations in order

`walkPlan` lists all operations of a plan, each before those of the plans it holds.
-/

namespace Stencil

mutual

/-- An operation and everything below it. -/
def Op.walk : Op → List Op
  | op@(.branch branches) => op :: walkBranches branches
  | op@(.loop _ _ body) => op :: walkPlan body
  | op@(.switch _ arms) => op :: walkBranches arms
  | op@(.toggle _ body) => op :: walkPlan body
  | op@(.call _ _ (some body)) => op :: walkPlan body
  | op => [op]

/-- All operations of a plan. -/
def walkPlan : List Op → List Op
  | [] => []
  | op :: rest => op.walk ++ walkPlan rest

/-- All operations of guarded plans. -/
def walkBranches : List (Option Expr × List Op) → List Op
  | [] => []
  | (_, body) :: rest => walkPlan body ++ walkBranches rest

end

end Stencil
