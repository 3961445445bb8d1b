import Stencil.Tree.Basic

/-!
# Render plans

A plan is what a template is compiled to: a list of operations that write to the output one after
the other. Operations of control hold plans of their own.
-/

namespace Stencil

/-- A part of a joined value. -/
inductive Part where
  | text (text : String)
  | value (expr : Expr)

/-- An operation of a plan. -/
inductive Op where
  /-- Markup that is known when the template is compiled. -/
  | literal (text : String)
  /-- The value of an expression. In an attribute it is always written as text. -/
  | escaped (expr : Expr) (inAttribute : Bool)
  /-- The texts of the parts, joined by single spaces and escaped as a whole. -/
  | joined (parts : List Part)
  /-- The text of a value as it is. -/
  | raw (expr : Expr)
  /-- The first plan whose condition is true or missing. -/
  | branch (branches : List (Option Expr × List Op))
  /-- The body once for every item. -/
  | loop (names : List String) (source : Expr) (body : List Op)
  /-- The first plan whose pattern equals the subject or is missing. -/
  | switch (subject : Expr) (arms : List (Option Expr × List Op))
  /-- The plan, if the expression is true. -/
  | toggle (expr : Expr) (body : List Op)
  /-- A component. Its children are a plan that it may run. -/
  | call (reference : Expr) (arguments : List (String × Content)) (children : Option (List Op))

/-- A render plan. -/
abbrev Plan := List Op

namespace Op

/-- The text of a literal. -/
def literal? : Op → Option String
  | .literal text => some text
  | _ => none

theorem eq_literal {op : Op} {text : String} (h : op.literal? = some text) : op = .literal text := by
  cases op <;> simp_all [literal?]

/-- The word for the kind of an operation. Operations that run other plans have one in common. -/
def kind : Op → String
  | .literal _ => "WriteLiteral"
  | .escaped .. => "WriteEscaped"
  | .joined _ => "WriteJoined"
  | .raw _ => "WriteRaw"
  | _ => "Invoke"

/-- The plans that an operation holds. -/
def plans : Op → List Plan
  | .branch branches => branches.map Prod.snd
  | .loop _ _ body => [body]
  | .switch _ arms => arms.map Prod.snd
  | .toggle _ body => [body]
  | .call _ _ children => children.toList
  | _ => []

end Op

end Stencil
