/-!
# Rules of the grammars

When a template is refused, the message names the rule that failed furthest in the text. Each rule
has a phrase for what was expected.
-/

namespace Stencil.Source

/-- The rules of both dialects that can fail. -/
inductive Rule where
  | document
  | node
  | comment
  | doctype
  | fragment
  | fragmentClose
  | element
  | tagName
  | tagTail
  | selfClose
  | tagBody
  | closingTag
  | tagAttribute
  | attributeName
  | attributeValue
  | attributeToggle
  | attributeAssign
  | attributeLiteral
  | singleQuoted
  | dynamicText
  | bracedExpr
  | quotedText
  | bareText
  | blockNode
  | spliceText
  | splice
  | number
  | blockName
  | elementEnd
  | semicolon
  | shorthand
  | shortValue
  | shortName
  | parenAttributes
  | blockAttribute
  | blockAttributeValue
  | blockAttributeToggle
  | blockAttributeAssign
  | space
  | block
  | control
  | ifBlock
  | elseIf
  | elseBlock
  | forBlock
  | forHead
  | forParen
  | forPlain
  | forTarget
  | nameList
  | matchBlock
  | matchArm
  | pattern
  | wildcard
  | arrow
  | rawOutput
  | wordIf
  | wordPlainIf
  | wordElse
  | wordFor
  | wordIn
  | wordMatch
  | wordRaw
  | condition
  | conditionCode
  | patternExpr
  | patternCode
  | exprString
  | exprParens
  | exprBrackets
  | exprBraces
  | exprCode
  | closeBrace
  | closeParen
  | closeBracket
  | endOfInput
deriving DecidableEq, Repr

/-- The phrase that follows "expected". -/
def Rule.phrase : Rule → String
  | .document => "document"
  | .node => "rsx node"
  | .comment => "comment"
  | .doctype => "doctype"
  | .fragment => "fragment"
  | .fragmentClose => "closing \"</>\" of a fragment"
  | .element => "element"
  | .tagName | .blockName => "element name"
  | .tagTail => "\">\" or \"/>\""
  | .selfClose => "\"/>\""
  | .tagBody => "\">\""
  | .closingTag => "closing tag"
  | .tagAttribute | .blockAttribute => "attribute"
  | .attributeName => "attribute name"
  | .attributeValue => "attribute value"
  | .attributeToggle => "attr toggle"
  | .attributeAssign => "attr assign"
  | .attributeLiteral => "double-quoted attribute value"
  | .singleQuoted => "single quoted"
  | .dynamicText => "dynamic text"
  | .bracedExpr => "braced expr"
  | .quotedText => "quoted text"
  | .bareText => "bare text"
  | .blockNode => "maud node"
  | .spliceText => "splice text"
  | .splice => "splice"
  | .number => "number"
  | .elementEnd => "\"\x7b\" or \";\""
  | .semicolon => "\";\""
  | .shorthand => "class or id shorthand"
  | .shortValue | .shortName => "class or id name"
  | .parenAttributes => "paren attrs"
  | .blockAttributeValue => "m attr value"
  | .blockAttributeToggle => "m attr toggle"
  | .blockAttributeAssign => "m attr assign"
  | .space => "space"
  | .block => "\"\x7b\" opening a block"
  | .control => "control"
  | .ifBlock => "if block"
  | .elseIf => "else if"
  | .elseBlock => "else block"
  | .forBlock => "for block"
  | .forHead => "loop header: name in expression"
  | .forParen => "for paren"
  | .forPlain => "for plain"
  | .forTarget | .nameList => "loop variable name"
  | .matchBlock => "match block"
  | .matchArm => "match arm: pattern => \x7b ... \x7d"
  | .pattern => "pattern or \"_\""
  | .wildcard => "wildcard"
  | .arrow => "\"=>\""
  | .rawOutput => "raw output"
  | .wordIf => "kw if"
  | .wordPlainIf => "kw if plain"
  | .wordElse => "kw else"
  | .wordFor => "kw for"
  | .wordIn => "\"in\""
  | .wordMatch => "kw match"
  | .wordRaw => "kw raw"
  | .patternExpr | .patternCode => "pattern"
  | .condition | .conditionCode | .exprString | .exprParens | .exprBrackets | .exprBraces
  | .exprCode => "expression"
  | .closeBrace => "\"\x7d\""
  | .closeParen => "\")\""
  | .closeBracket => "\"]\""
  | .endOfInput => "end of template"

end Stencil.Source
