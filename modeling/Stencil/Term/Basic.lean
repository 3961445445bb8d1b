/-!
# Terms of the expression language

Templates embed expressions over a dynamic scope. A `Term` is such an expression after reading:
parentheses and comments are gone, adjacent string literals are one literal.
-/

namespace Stencil

/-- A literal that is one token, or a run of string tokens. -/
inductive Lit where
  | none
  | bool (b : Bool)
  | int (n : Int)
  | float (x : Float)
  | str (s : String)

/-- Operators with one operand. -/
inductive UnaryOp where
  | plus
  | minus
  | not
deriving DecidableEq, Repr

/-- Arithmetic operators. -/
inductive BinaryOp where
  | add
  | sub
  | mul
  | div
  | floorDiv
  | mod
deriving DecidableEq, Repr

/-- Comparison operators, which may be chained. -/
inductive CompareOp where
  | eq
  | ne
  | lt
  | le
  | gt
  | ge
  | isIn
  | notIn
  | same
  | notSame
deriving DecidableEq, Repr

/-- What a comprehension binds: a name, or several that a value is unpacked into. -/
inductive Target where
  | name (id : String)
  | tuple (parts : List Target)

mutual

/-- An expression. -/
inductive Term where
  | lit (value : Lit)
  | name (id : String)
  | tuple (items : List Term)
  | list (items : List Term)
  | dict (entries : List (Term × Term))
  | member (subject : Term) (name : String)
  | index (subject key : Term)
  | slice (subject : Term) (low high : Option Term)
  /-- Several keys, and slices among them: the terms that stand in the brackets. -/
  | slices (subject : Term) (parts : List Term)
  | call (function : Term) (arguments : List Term)
  | unary (op : UnaryOp) (operand : Term)
  | binary (op : BinaryOp) (left right : Term)
  | compare (first : Term) (rest : List (CompareOp × Term))
  | and (left right : Term)
  | or (left right : Term)
  | choose (condition yes no : Term)
  | listOf (item : Term) (clauses : List Clause)
  | generator (item : Term) (clauses : List Clause)

/-- One `for` of a comprehension with the conditions that follow it. -/
inductive Clause where
  | mk (target : Target) (source : Term) (conditions : List Term)

end

end Stencil
