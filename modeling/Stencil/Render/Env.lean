import Stencil.Value.Basic

/-!
# Environments

The names that a term can see. A comprehension binds names in a frame of its own, which lives in
the store of the render: a part of the comprehension that is evaluated later sees the values that
the names have then.
-/

namespace Stencil

/-- The names that a comprehension binds, and the number of the frame with their values. -/
structure Frame where
  names : List String
  id : Nat
deriving DecidableEq, Repr, Inhabited

/-- What a term is evaluated in. -/
structure Env where
  /-- Where the expression stands that the term belongs to. -/
  place : Option Location := none
  /-- The frames of the comprehensions around the term, the innermost first. -/
  frames : List Frame := []
  /-- The names beyond the comprehensions. -/
  context : Scope

namespace Target

mutual

/-- The names that a target binds. -/
def names : Target → List String
  | .name id => [id]
  | .tuple parts => namesOfAll parts

/-- The names that targets bind. -/
def namesOfAll : List Target → List String
  | [] => []
  | t :: rest => t.names ++ namesOfAll rest

end

end Target

/-- The names that the clauses of a comprehension bind. -/
def Clause.names : List Clause → List String
  | [] => []
  | .mk target _ _ :: rest => target.names ++ Clause.names rest

end Stencil
