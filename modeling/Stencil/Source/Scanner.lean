import Stencil.Text.Blank
import Stencil.Text.Word

/-!
# Scanners

A scanner tells how many characters at the start of a text belong to a token; `none` if the text
does not begin with one. Each takes as many as it can.
-/

namespace Stencil.Source

open Stencil.Text

/-- A scanner of one kind of token. -/
abbrev Scanner := List Char → Option Nat

/-- The length of the run of characters with a property. -/
def run (p : Char → Bool) (text : List Char) : Nat :=
  (text.takeWhile p).length

/-- A run that is not empty. -/
def run1 (p : Char → Bool) : Scanner := fun text =>
  let n := run p text
  if n == 0 then none else some n

/-- A fixed text. -/
def literal (word : List Char) : Scanner := fun text =>
  if word.isPrefixOf text then some word.length else none

/-- A fixed word that no word character follows. -/
def keyword (word : List Char) : Scanner := fun text =>
  if word.isPrefixOf text && !((text.drop word.length).head?.any isWord) then some word.length
  else none

/-! ## White space -/

/-- White space, possibly none. -/
def spaces (text : List Char) : Nat :=
  run isSpace text

/-- White space, at least one character. -/
def spaces1 : Scanner :=
  run1 isSpace

/-- White space and line comments, which begin with two slashes; `comment` tells whether the text
begins inside a comment. -/
def spacesAndComments (comment : Bool) : List Char → Nat
  | [] => 0
  | '/' :: '/' :: rest => 2 + spacesAndComments true rest
  | c :: rest =>
    if comment then 1 + spacesAndComments (c != '\n') rest
    else if isSpace c then 1 + spacesAndComments false rest
    else 0

/-! ## Names -/

/-- A character inside a tag name. -/
def isTagChar (c : Char) : Bool :=
  isWord c || c == '-'

/-- The rest of a tag name: parts joined by points and colons, each but the first beginning like a
name. -/
def tagNameRest : List Char → Nat
  | [] => 0
  | c :: rest =>
    if isTagChar c then 1 + tagNameRest rest
    else if c == '.' || c == ':' then
      match rest with
      | d :: more => if isNameHead d then 2 + tagNameRest more else 0
      | [] => 0
    else 0

/-- The name of a tag. -/
def tagName : Scanner
  | [] => none
  | c :: rest => if isAsciiLetter c then some (1 + tagNameRest rest) else none

/-- The name of an element in a block, with at most one colon. -/
def blockName : Scanner
  | [] => none
  | c :: rest =>
    if isAsciiLetter c then
      let n := run isTagChar rest
      match rest.drop n with
      | ':' :: d :: more =>
        -- a colon that no name follows is left alone
        some (if isNameHead d then 1 + n + 2 + run isTagChar more else 1 + n)
      | _ => some (1 + n)
    else none

/-- A character inside an attribute name. -/
def isAttributeChar (c : Char) : Bool :=
  isWord c || c == '-' || c == '.' || c == ':'

/-- The length of the mark that an attribute name may begin with: an at sign or a colon. -/
def attributeMark : List Char → Nat
  | '@' :: _ => 1
  | ':' :: _ => 1
  | _ => 0

/-- The name of an attribute, maybe with a mark in front. -/
def attributeName (text : List Char) : Option Nat :=
  let mark := attributeMark text
  match text.drop mark with
  | c :: rest => if isNameHead c then some (mark + 1 + run isAttributeChar rest) else none
  | [] => none

/-- The rest of a list of loop names after a name: further names with commas between them. The
first argument bounds the number of steps. -/
def namesRest : Nat → List Char → Nat
  | 0, _ => 0
  | n + 1, text =>
    let before := spaces text
    match text.drop before with
    | ',' :: rest =>
      let after := spaces rest
      match rest.drop after with
      | c :: more =>
        if isNameHead c then
          let tail := run isWord more
          before + 1 + after + 1 + tail + namesRest n (more.drop tail)
        else 0
      | [] => 0
    | _ => 0

/-- Loop names with commas between them. -/
def nameList : Scanner
  | [] => none
  | c :: rest =>
    if isNameHead c then
      let tail := run isWord rest
      some (1 + tail + namesRest rest.length (rest.drop tail))
    else none

/-- The name after a class or id mark. -/
def shortName : Scanner :=
  run1 isTagChar

/-- The mark of a class or an id. -/
def shorthandMark : Scanner
  | '.' :: _ => some 1
  | '#' :: _ => some 1
  | _ => none

/-! ## Quotes -/

/-- A text between two marks that does not hold the mark. -/
def between (mark : Char) : Scanner
  | [] => none
  | c :: rest =>
    if c == mark then
      let n := run (· != mark) rest
      if n < rest.length then some (n + 2) else none
    else none

/-- The rest of a quoted literal after its opening quote, up to the closing quote and with it. A
backslash takes the next character along, which may not be a newline; `multiline` tells whether a
newline may stand for itself. -/
def quotedRest (quote : Char) (multiline : Bool) : Scanner
  | [] => none
  | '\\' :: c :: rest =>
    if c == '\n' then none else (quotedRest quote multiline rest).map (· + 2)
  | c :: rest =>
    if c == quote then some 1
    else if c == '\\' || (c == '\n' && !multiline) then none
    else (quotedRest quote multiline rest).map (· + 1)

/-- A quoted text of a template. -/
def quotedText : Scanner
  | '"' :: rest => (quotedRest '"' true rest).map (· + 1)
  | _ => none

/-- A string inside an embedded expression, on one line. -/
def exprString : Scanner
  | '"' :: rest => (quotedRest '"' false rest).map (· + 1)
  | '\'' :: rest => (quotedRest '\'' false rest).map (· + 1)
  | _ => none

/-! ## Code -/

/-- A character that neither opens nor closes anything. -/
def isCode (c : Char) : Bool :=
  !(c == '(' || c == ')' || c == '{' || c == '}' || c == '[' || c == ']' || c == '"' || c == '\'')

/-- A run of code. -/
def code : Scanner :=
  run1 isCode

/-- The length of a run of code that stops before an arrow. -/
def patternCodeLength : List Char → Nat
  | '=' :: '>' :: _ => 0
  | c :: rest => if isCode c then 1 + patternCodeLength rest else 0
  | [] => 0

/-- A run of code that stops before an arrow. -/
def patternCode : Scanner := fun text =>
  let n := patternCodeLength text
  if n == 0 then none else some n

/-- The underscore that matches everything, unless an expression begins with it. -/
def wildcard : Scanner
  | '_' :: rest =>
    if rest.head?.any fun c => isWord c || c == '.' || c == '(' || c == '[' then none else some 1
  | _ => none

/-! ## Markup -/

/-- The length of a text up to the end of a comment and with it. -/
def commentRest : Scanner
  | '-' :: '-' :: '>' :: _ => some 3
  | _ :: rest => (commentRest rest).map (· + 1)
  | [] => none

/-- A comment. -/
def comment : Scanner
  | '<' :: '!' :: '-' :: '-' :: rest => (commentRest rest).map (· + 4)
  | _ => none

/-- A fixed word in letters of either case. -/
def anyCase (word : List Char) : Scanner := fun text =>
  if (text.take word.length).map Char.toLower == word then some word.length else none

/-- The document type declaration in tags. -/
def doctype : Scanner := fun text => do
  let opening := "<!doctype".toList
  let n ← anyCase opening text
  let before ← spaces1 (text.drop n)
  let word ← anyCase "html".toList (text.drop (n + before))
  let length := n + before + word
  let after := spaces (text.drop length)
  match text.drop (length + after) with
  | '>' :: _ => some (length + after + 1)
  | _ => none

/-- The words that an at sign turns into control blocks. -/
def controlWords : List (List Char) :=
  [['i', 'f'], ['e', 'l', 's', 'e'], ['f', 'o', 'r'], ['m', 'a', 't', 'c', 'h'], ['r', 'a', 'w']]

/-- The length of plain text between tags. An at sign is plain unless a control word follows. -/
def plainLength : List Char → Nat
  | [] => 0
  | c :: rest =>
    if c == '<' || c == '{' || c == '}' || c == '"' then 0
    else if c == '@' && controlWords.any fun w => (keyword w rest).isSome then 0
    else 1 + plainLength rest

/-- Plain text between tags. -/
def plainText : Scanner := fun text =>
  let n := plainLength text
  if n == 0 then none else some n

/-! ## Numbers -/

/-- The length of an exponent at the start of a text; zero if there is none. -/
def exponentLength (text : List Char) : Nat :=
  match text with
  | e :: rest =>
    if e == 'e' || e == 'E' then
      let sign := match rest with
        | '-' :: _ => 1
        | '+' :: _ => 1
        | _ => 0
      let digits := run isDigit (rest.drop sign)
      if digits == 0 then 0 else 1 + sign + digits
    else 0
  | [] => 0

/-- A number that no word character and no point follows. -/
def number : Scanner := fun text =>
  let sign := match text with
    | '-' :: _ => 1
    | '+' :: _ => 1
    | _ => 0
  let whole := run isDigit (text.drop sign)
  let fraction :=
    match text.drop (sign + whole) with
    | '.' :: rest =>
      let n := run isDigit rest
      if n == 0 then 0 else n + 1
    | _ => 0
  let length := sign + whole + fraction
  let length := length + exponentLength (text.drop length)
  if whole == 0 then none
  else if (text.drop length).head?.any fun c => isWord c || c == '.' then none
  else some length

end Stencil.Source
