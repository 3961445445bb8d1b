import Stencil.Source.Embedded
import Stencil.Source.Surface

/-!
# Control blocks

Conditions, loops, matches and raw output look the same in both dialects. A dialect supplies what
may be skipped and how a block is written.
-/

namespace Stencil.Source

open Matcher

/-- What control blocks need of a dialect. -/
structure ControlStyle where
  /-- Skips white space, and comments where a dialect has them. -/
  skip : Matcher Unit
  block : Matcher (List Surface)

/-- A closing brace. -/
def closeBrace : Matcher Lexeme := token .closeBrace (literal ['}'])

/-- A closing parenthesis. -/
def closeParen : Matcher Lexeme := token .closeParen (literal [')'])

/-- A closing bracket. -/
def closeBracket : Matcher Lexeme := token .closeBracket (literal [']'])

/-- White space that has to be there. -/
def space : Matcher Lexeme := token .space spaces1

/-- The word that introduces a loop's source. -/
def wordIn : Matcher Lexeme := token .wordIn (keyword ['i', 'n'])

/-- The word that begins a condition. -/
def wordIf : Matcher Lexeme := token .wordIf (keyword ['@', 'i', 'f'])

/-- The word that begins an alternative. -/
def wordElse : Matcher Lexeme := token .wordElse (keyword ['@', 'e', 'l', 's', 'e'])

namespace ControlStyle

variable (style : ControlStyle)

/-- A further condition with its body. -/
def elseIf : Matcher (Lexeme × List Surface) :=
  named .elseIf do
    style.skip
    let _ ← wordElse
    style.skip
    let _ ← token .wordPlainIf (keyword ['i', 'f'])
    style.skip
    let test ← condition
    return (test, ← style.block)

/-- The body without a condition. -/
def elseBlock : Matcher (List Surface) :=
  named .elseBlock do
    style.skip
    let _ ← wordElse
    style.skip
    style.block

/-- Conditions with bodies. -/
def ifBlock : Matcher Surface :=
  named .ifBlock do
    let offset ← Matcher.offset
    let _ ← wordIf
    style.skip
    let test ← condition
    let body ← style.block
    let others ← many style.elseIf
    let last ← optional style.elseBlock
    return .choice offset ((test, body) :: others) last

/-- The names of a loop, maybe in parentheses. -/
def forTarget : Matcher Lexeme :=
  named .forTarget (lexeme (orElse
    (do
      let _ ← scan (literal ['('])
      style.skip
      let _ ← token .nameList nameList
      style.skip
      let _ ← scan (literal [')']))
    (do let _ ← token .nameList nameList)))

/-- The names and the source of a loop. -/
def forPlain : Matcher (Lexeme × Lexeme) :=
  named .forPlain do
    let names ← style.forTarget
    let _ ← space
    let _ ← wordIn
    let _ ← space
    return (names, ← condition)

/-- The names and the source of a loop, all in parentheses. -/
def forParen : Matcher (Lexeme × Lexeme) :=
  named .forParen do
    let _ ← scan (literal ['('])
    style.skip
    let names ← style.forTarget
    let _ ← space
    let _ ← wordIn
    let _ ← space
    let source ← condition
    let _ ← closeParen
    return (names, source)

/-- A loop. -/
def forBlock : Matcher Surface :=
  named .forBlock do
    let offset ← Matcher.offset
    let _ ← token .wordFor (keyword ['@', 'f', 'o', 'r'])
    style.skip
    let (names, source) ← named .forHead (orElse style.forParen style.forPlain)
    style.skip
    return .each offset names source (← style.block)

/-- One arm of a match. -/
def matchArm : Matcher (Option Lexeme × List Surface) :=
  named .matchArm do
    let pattern ← named .pattern (orElse
      (do let _ ← token .wildcard wildcard; return none)
      (do return some (← patternExpr)))
    style.skip
    let _ ← token .arrow (literal ['=', '>'])
    style.skip
    let body ← style.block
    style.skip
    let _ ← optional (scan (literal [',']))
    style.skip
    return (pattern, body)

/-- A match. -/
def matchBlock : Matcher Surface :=
  named .matchBlock do
    let offset ← Matcher.offset
    let _ ← token .wordMatch (keyword ['@', 'm', 'a', 't', 'c', 'h'])
    style.skip
    let subject ← condition
    let _ ← scan (literal ['{'])
    style.skip
    let arms ← many style.matchArm
    let _ ← closeBrace
    return .cases offset subject arms

/-- Any of the control blocks. -/
def control : Matcher Surface :=
  named .control (firstOf [style.ifBlock, style.forBlock, style.matchBlock])

/-- Output that is not escaped. -/
def rawOutput : Matcher Surface :=
  named .rawOutput do
    let offset ← Matcher.offset
    let _ ← token .wordRaw (keyword ['@', 'r', 'a', 'w'])
    style.skip
    let _ ← scan (literal ['('])
    let body ← lexeme exprBody
    let _ ← closeParen
    return .raw offset body

end ControlStyle

/-- A text in double quotes. -/
def quoted : Matcher Surface := do
  return .quoted (← token .quotedText quotedText)

/-- An attribute value that is given after an equals sign: text in double quotes, an expression, or
text in single quotes. -/
def assigned (expr : Matcher Lexeme) : Matcher SurfaceValue :=
  firstOf [
    do return .quoted (← token .attributeLiteral (between '"')),
    do return .expr (← expr),
    do return .single (← token .singleQuoted (between '\''))]

/-- The end of the source. -/
def endOfInput : Matcher Lexeme :=
  token .endOfInput fun text => if text.isEmpty then some 0 else none

end Stencil.Source
