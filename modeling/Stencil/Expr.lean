import Stencil.Source.Error
import Stencil.Term.Constant
import Stencil.Term.Grammar
import Stencil.Text.Blank

/-!
# Embedded expressions

An expression in a template is read once, when the template is. It is evaluated as if its source
stood in parentheses on lines of its own, so line breaks are free in it and a comment may end it.
Whether it is a constant goes by the source as it stands.
-/

namespace Stencil

/-- The text that is read for evaluation. -/
def Expr.codeText (source : String) : List Char :=
  '(' :: source.toList ++ ['\n', ')']

/-- An expression with its place in the template. -/
structure Expr where
  /-- The text, without blanks at either end. -/
  source : String
  /-- What the text means. -/
  code : Term
  /-- Where the text begins, blanks included. -/
  place : Option Location
  reads : Term.read? (Expr.codeText source) = some code

namespace Expr

/-- The expression that a text spells. -/
def ofSource (text : String) (place : Option Location) : Except SourceError Expr :=
  let source := String.ofList (Text.trim text.toList)
  if source.isEmpty then .error ⟨.emptyExpression, place⟩
  else
    match h : Term.read? (codeText source) with
    | some code => .ok ⟨source, code, place, h⟩
    | none => .error ⟨.invalidExpression source, place⟩

theorem ofSource_eq_ok {text : String} {place : Option Location} {e : Expr}
    (h : ofSource text place = .ok e) :
    e.source = String.ofList (Text.trim text.toList) ∧ e.source ≠ "" ∧ e.place = place := by
  unfold ofSource at h
  dsimp only at h
  split at h
  · cases h
  · next hne =>
    split at h
    · cases h
      exact ⟨rfl, fun hempty => hne (String.isEmpty_iff.mpr hempty), rfl⟩
    · cases h

/-- Expressions are the same if their sources are, wherever they stand. -/
def same (a b : Expr) : Bool :=
  a.source == b.source

/-- The value of the expression, if it is a constant. -/
def constant? (e : Expr) : Option Constant :=
  (Term.read? e.source.toList).bind Term.constant?

/-- Whether the expression is known to be `True`. -/
def alwaysTrue (e : Expr) : Bool :=
  match e.constant? with
  | some (.bool true) => true
  | _ => false

/-- Whether the expression is one string literal, parentheses aside. -/
def isStringLiteral (e : Expr) : Bool :=
  e.code.isString

/-- The text between the first and the last character. -/
def inner (e : Expr) : List Char :=
  (e.source.toList.drop 1).dropLast

theorem same_code {a b : Expr} (h : a.same b = true) : a.code = b.code := by
  have hs : a.source = b.source := by simpa [same] using h
  have := a.reads
  rw [hs, b.reads] at this
  exact (Option.some.inj this).symm

end Expr

end Stencil
