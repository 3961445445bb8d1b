import Stencil.Number.Read
import Stencil.Text.Shown

/-!
# Tokens of the expression language

A text is cut into names, numbers, strings and symbols. Inside brackets a line break is white
space; outside it ends the expression, so a `lineEnd` is kept there. Comments run from `#` to the
end of the line, a backslash joins two lines, and brackets nest at most `bracketLimit` deep.
-/

namespace Stencil.Term

open Stencil.Text Stencil.Number

/-- Operators and punctuation. -/
inductive Symbol where
  | openParen
  | closeParen
  | openBracket
  | closeBracket
  | openBrace
  | closeBrace
  | comma
  | colon
  | dot
  | plus
  | minus
  | star
  | slash
  | slashSlash
  | percent
  | equal
  | notEqual
  | less
  | lessEqual
  | greater
  | greaterEqual
deriving DecidableEq, Repr

/-- Words that are not names. Those that begin no expression here are `reserved`. -/
inductive Keyword where
  | andWord
  | orWord
  | notWord
  | ifWord
  | elseWord
  | forWord
  | inWord
  | isWord
  | noneWord
  | trueWord
  | falseWord
  | reserved
deriving DecidableEq, Repr

/-- A token. -/
inductive Token where
  | name (id : String)
  | keyword (word : Keyword)
  | int (n : Nat)
  | float (x : Float)
  | str (s : List Char)
  | symbol (s : Symbol)
  | lineEnd

/-- The keyword that a word is, if any. -/
def keyword? (word : String) : Option Keyword :=
  match word with
  | "and" => some .andWord
  | "or" => some .orWord
  | "not" => some .notWord
  | "if" => some .ifWord
  | "else" => some .elseWord
  | "for" => some .forWord
  | "in" => some .inWord
  | "is" => some .isWord
  | "None" => some .noneWord
  | "True" => some .trueWord
  | "False" => some .falseWord
  | _ =>
    if ["as", "assert", "async", "await", "break", "class", "continue", "def", "del", "elif",
        "except", "finally", "from", "global", "import", "lambda", "nonlocal", "pass", "raise",
        "return", "try", "while", "with", "yield"].contains word then some .reserved
    else none

/-! ## Symbols -/

/-- The symbol that two characters make. -/
def pairSymbol? : Char → Char → Option Symbol
  | '/', '/' => some .slashSlash
  | '=', '=' => some .equal
  | '!', '=' => some .notEqual
  | '<', '=' => some .lessEqual
  | '>', '=' => some .greaterEqual
  | _, _ => none

/-- The symbol that one character makes. -/
def singleSymbol? : Char → Option Symbol
  | '(' => some .openParen
  | ')' => some .closeParen
  | '[' => some .openBracket
  | ']' => some .closeBracket
  | '{' => some .openBrace
  | '}' => some .closeBrace
  | ',' => some .comma
  | ':' => some .colon
  | '.' => some .dot
  | '+' => some .plus
  | '-' => some .minus
  | '*' => some .star
  | '/' => some .slash
  | '%' => some .percent
  | '<' => some .less
  | '>' => some .greater
  | _ => none

/-- The longest symbol at the start of a text, and its length. -/
def symbol? : List Char → Option (Symbol × Nat)
  | [] => none
  | [c] => (singleSymbol? c).map (·, 1)
  | c :: d :: _ =>
    match pairSymbol? c d with
    | some s => some (s, 2)
    | none => (singleSymbol? c).map (·, 1)

/-- How a symbol changes the depth of brackets. -/
def Symbol.depthAfter (depth : Nat) : Symbol → Nat
  | .openParen | .openBracket | .openBrace => depth + 1
  | .closeParen | .closeBracket | .closeBrace => depth - 1
  | _ => depth

/-- The deepest that brackets may nest. -/
def bracketLimit : Nat := 200

/-! ## Numbers -/

/-- A digit of ASCII. -/
def isAsciiDigit (c : Char) : Bool :=
  '0' ≤ c && c ≤ '9'

/-- The number that a run of ASCII digits spells. -/
def decimalValue (digits : List Char) : Nat :=
  digits.foldl (fun n c => 10 * n + (c.toNat - '0'.toNat)) 0

/-- The exponent of a number, if the text begins with one: its value and length. -/
def exponent? : List Char → Option (Int × Nat)
  | e :: rest =>
    if e == 'e' || e == 'E' then
      let (negative, body) := takeSign rest
      let digits := body.takeWhile isAsciiDigit
      if digits.isEmpty then none
      else
        let n := Int.ofNat (decimalValue digits)
        some (if negative then -n else n, 1 + (rest.length - body.length) + digits.length)
    else none
  | [] => none

/-- The digits after a point at the start of a text, and whether the point is there. -/
def fraction : List Char → List Char × Bool
  | '.' :: more => (more.takeWhile isAsciiDigit, true)
  | _ => ([], false)

/-- The number at the start of a text, and its length. An integer has no leading zero unless it
is zero, and no more digits than can be read. -/
def number? (text : List Char) : Option (Token × Nat) :=
  let whole := text.takeWhile isAsciiDigit
  let (fraction, hasPoint) := fraction (text.drop whole.length)
  if whole.isEmpty && fraction.isEmpty then none
  else
    let length := whole.length + (if hasPoint then 1 else 0) + fraction.length
    match exponent? (text.drop length) with
    | some (e, n) =>
      some (.float (ofDecimal false (decimalValue (whole ++ fraction)) (e - fraction.length)),
        length + n)
    | none =>
      if hasPoint then
        some (.float (ofDecimal false (decimalValue (whole ++ fraction)) (-fraction.length)),
          length)
      else if whole.head? == some '0' then
        if whole.all (· == '0') then some (.int 0, length) else none
      else if digitLimit < whole.length then none
      else some (.int (decimalValue whole), length)

/-! ## Strings -/

/-- The value of a digit in base sixteen. -/
def hexValue? (c : Char) : Option Nat :=
  if '0' ≤ c && c ≤ '9' then some (c.toNat - '0'.toNat)
  else if 'a' ≤ c && c ≤ 'f' then some (c.toNat - 'a'.toNat + 10)
  else if 'A' ≤ c && c ≤ 'F' then some (c.toNat - 'A'.toNat + 10)
  else none

/-- The character for the code point that is spelled by exactly `width` digits in base sixteen. -/
def hexChar? (width : Nat) (text : List Char) : Option Char :=
  let digits := (text.take width).filterMap hexValue?
  let n := digits.foldl (fun n d => 16 * n + d) 0
  if digits.length == width && n < 0x110000 then some (charOf n) else none

/-- Characters that a backslash and one letter stand for. -/
def letterEscape? : Char → Option Char
  | '\\' => some '\\'
  | '\'' => some '\''
  | '"' => some '"'
  | 'a' => some '\x07'
  | 'b' => some '\x08'
  | 'f' => some '\x0c'
  | 'n' => some '\n'
  | 'r' => some '\r'
  | 't' => some '\t'
  | 'v' => some '\x0b'
  | _ => none

/-- What the escape after a backslash stands for, and the length of the escape without the
backslash. An unknown escape stands for itself with its backslash; `none` if the escape is
malformed. -/
def escape? : List Char → Option (List Char × Nat)
  | [] => none
  | '\n' :: _ => some ([], 1)
  | 'x' :: rest => (hexChar? 2 rest).map fun c => ([c], 3)
  | 'u' :: rest => (hexChar? 4 rest).map fun c => ([c], 5)
  | 'U' :: rest => (hexChar? 8 rest).map fun c => ([c], 9)
  | 'N' :: _ => none
  | c :: rest =>
    match letterEscape? c with
    | some d => some ([d], 1)
    | none =>
      let octal := ((c :: rest).take 3).takeWhile fun d => '0' ≤ d && d ≤ '7'
      if octal.isEmpty then some (['\\', c], 1)
      else
        some ([Char.ofNat (octal.foldl (fun n d => 8 * n + (d.toNat - '0'.toNat)) 0)],
          octal.length)

/-- How a string literal is written. -/
structure Quoting where
  quote : Char
  /-- Three quotes on each side, which lets line breaks in. -/
  triple : Bool
  /-- Backslashes stand for themselves. -/
  verbatim : Bool

/-- Whether the closing quotes stand at the start of a text. -/
def Quoting.closes (q : Quoting) (text : List Char) : Bool :=
  if q.triple then text.take 3 == [q.quote, q.quote, q.quote] else text.head? == some q.quote

/-- The number of quotes on each side. -/
def Quoting.width (q : Quoting) : Nat :=
  if q.triple then 3 else 1

/-- What the characters after a backslash stand for, with the backslash, and their number. -/
def Quoting.escape? (q : Quoting) (text : List Char) : Option (List Char × Nat) :=
  if q.verbatim then text.head?.map fun c => (['\\', c], 1) else Term.escape? text

/-- The text of a string literal up to its closing quotes, and the length of what was read with
them. The first argument bounds the number of steps. -/
def stringBody? (q : Quoting) : Nat → List Char → Option (List Char × Nat)
  | 0, _ => none
  | _, [] => none
  | n + 1, c :: rest =>
    if q.closes (c :: rest) then some ([], q.width)
    else if c == '\n' && !q.triple then none
    else if c == '\\' then do
      let (chars, width) ← q.escape? rest
      let (s, k) ← stringBody? q n (rest.drop width)
      pure (chars ++ s, k + width + 1)
    else (stringBody? q n rest).map fun (s, k) => (c :: s, k + 1)

/-- The string literal at the start of a text, after its letter prefix, and its length. -/
def string? (verbatim : Bool) (text : List Char) : Option (Token × Nat) :=
  match text with
  | [] => none
  | quote :: _ =>
    let triple := text.take 3 == [quote, quote, quote]
    let q : Quoting := ⟨quote, triple, verbatim⟩
    (stringBody? q text.length (text.drop q.width)).map fun (s, k) => (.str s, q.width + k)

/-! ## Names -/

/-- Whether a quote comes next. -/
def isQuoted : List Char → Bool
  | c :: _ => c == '"' || c == '\''
  | [] => false

/-- The word at the start of a text, and its length; a word that prefixes a string literal is
read with the literal. Only the prefixes `r` and `u` are known. -/
def word? (text : List Char) : Option (Token × Nat) :=
  let word := text.takeWhile isIdentifierRest
  let rest := text.drop word.length
  let quoted := isQuoted rest
  let small := word.map Char.toLower
  if quoted && (small == ['r'] || small == ['u']) then
    (string? (small == ['r']) rest).map fun (t, n) => (t, word.length + n)
  -- bytes and formatted strings are no part of the language
  else if quoted && [['b'], ['f'], ['b', 'r'], ['r', 'b'], ['f', 'r'], ['r', 'f']].contains small
  then none
  else
    let id := String.ofList word
    some (match keyword? id with | some k => .keyword k | none => .name id, word.length)

/-! ## The whole text -/

/-- Line breaks of every kind become newlines. -/
def unifyLines : List Char → List Char
  | [] => []
  | '\r' :: '\n' :: rest => '\n' :: unifyLines rest
  | '\r' :: rest => '\n' :: unifyLines rest
  | c :: rest => c :: unifyLines rest

/-- The token at the start of a text, its length, and the depth of brackets behind it. -/
def token? (depth : Nat) : List Char → Option (Token × Nat × Nat)
  | [] => none
  | c :: rest =>
    if isIdentifierHead c then (word? (c :: rest)).map fun (token, width) => (token, width, depth)
    else if c == '"' || c == '\'' then
      (string? false (c :: rest)).map fun (token, width) => (token, width, depth)
    else
      match number? (c :: rest) with
      | some (token, width) => some (token, width, depth)
      | none => do
        let (s, width) ← symbol? (c :: rest)
        let depth := s.depthAfter depth
        if isAsciiDigit c || bracketLimit < depth then none
        else some (.symbol s, width, depth)

/-- Where the lexer stands: the depth of brackets, whether the line has tokens yet, and whether
blanks were passed at its start. -/
structure Place where
  depth : Nat
  hasTokens : Bool
  indented : Bool

/-- The line that a backslash joins to its own, which may not be the end of the text. -/
def nextLine? : List Char → Option (List Char)
  | '\n' :: c :: rest => some (c :: rest)
  | _ => none

/-- The tokens of a text; `none` if it has something that is no token. The first argument bounds
the number of steps. -/
def scan? (place : Place) : Nat → List Char → Option (List Token)
  | 0, _ => none
  | _, [] => some []
  | n + 1, c :: rest =>
    if c == ' ' || c == '\t' || c == '\x0c' then scan? { place with indented := true } n rest
    else if c == '#' then scan? place n (rest.dropWhile (· != '\n'))
    else if c == '\n' then
      if place.depth == 0 && place.hasTokens then
        (scan? ⟨0, false, false⟩ n rest).map (.lineEnd :: ·)
      else scan? { place with indented := false } n rest
    else if c == '\\' then do scan? place n (← nextLine? rest)
    else do
      let (token, width, depth) ← token? place.depth (c :: rest)
      -- an expression does not begin with an indent
      if place.depth == 0 && place.indented && !place.hasTokens then none
      else (scan? ⟨depth, true, false⟩ n ((c :: rest).drop width)).map (token :: ·)

/-- The tokens of a text. -/
def tokens? (text : List Char) : Option (List Token) :=
  let text := unifyLines text
  scan? ⟨0, false, false⟩ (text.length + 1) text

end Stencil.Term
