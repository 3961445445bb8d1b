import Stencil.Source.Match
import Stencil.Source.Scanner

/-!
# Finding embedded expressions

An expression in a template is found by its brackets and strings alone: it ends where a bracket
closes that was not opened in it. What it means is looked at later.
-/

namespace Stencil.Source

open Matcher

/-- Text between a pair of brackets. -/
def bracketed (rule : Rule) (opening closing : Char) (body : Matcher Unit) : Matcher Unit :=
  named rule do
    let _ ← scan (literal [opening])
    body
    let _ ← scan (literal [closing])

/-- A string inside an expression. -/
def stringPiece : Matcher Unit := do
  let _ ← token .exprString exprString

/-- The text between brackets: any balanced text. The number bounds the depth of nesting. -/
def balanced : Nat → Cursor → Outcome Unit
  | 0, c => Matcher.pure () c
  | n + 1, c => Matcher.bind (many (piece (balanced n))) (fun _ => Matcher.pure ()) c
where
  /-- One piece of balanced text, given the matcher of what stands between brackets. -/
  piece (inner : Matcher Unit) : Matcher Unit :=
    firstOf [
      stringPiece,
      bracketed .exprParens '(' ')' inner,
      bracketed .exprBrackets '[' ']' inner,
      bracketed .exprBraces '{' '}' inner,
      do let _ ← token .exprCode code]

/-- Balanced text. It nests at most as deep as there are characters. -/
def exprBody : Matcher Unit := fun c =>
  balanced c.rest.length c

/-- A string, parentheses or brackets. -/
def closedPieces : List (Matcher Unit) :=
  [stringPiece, bracketed .exprParens '(' ')' exprBody, bracketed .exprBrackets '[' ']' exprBody]

/-- A condition or a source of items: an expression up to the first open brace. -/
def condition : Matcher Lexeme :=
  named .condition
    (lexeme (some1 (firstOf (closedPieces ++ [do let _ ← token .conditionCode code]))))

/-- A pattern: an expression up to an arrow. -/
def patternExpr : Matcher Lexeme :=
  named .patternExpr
    (lexeme (some1 (firstOf (closedPieces ++ [do let _ ← token .patternCode patternCode]))))

end Stencil.Source
