import Stencil.Term.Basic
import Stencil.Term.Token

/-!
# Grammar of the expression language

Terms are read from tokens by recursive descent. A reader of one precedence level is given the
reader of a whole expression, for what stands inside brackets and after `else`; the knot is tied
over a bound on nesting, which the number of tokens exceeds.

Outside the language, and so refused: keyword and starred arguments, slices with a step, set
displays and comprehensions, and every operator that is no `Symbol`.
-/

namespace Stencil.Term

/-- A reader of a prefix of the tokens. -/
abbrev Reader := StateT (List Token) Option

namespace Reader

/-- The next token, which stays. -/
def peek : Reader (Option Token) := do
  return (← get).head?

/-- Drop the next token. -/
def skip : Reader Unit :=
  modify fun tokens => tokens.drop 1

/-- Whether the next token is the symbol; if so it is read. -/
def accept (s : Symbol) : Reader Bool := do
  match ← peek with
  | some (.symbol t) => if t = s then do skip; return true else return false
  | _ => return false

/-- Whether the next token is the keyword; if so it is read. -/
def acceptWord (k : Keyword) : Reader Bool := do
  match ← peek with
  | some (.keyword t) => if t = k then do skip; return true else return false
  | _ => return false

/-- Read the symbol. -/
def expect (s : Symbol) : Reader Unit := do
  if ← accept s then pure () else failure

/-- Read the keyword. -/
def expectWord (k : Keyword) : Reader Unit := do
  if ← acceptWord k then pure () else failure

/-- Read a name. -/
def identifier : Reader String := do
  match ← peek with
  | some (.name id) => do skip; return id
  | _ => failure

/-- The number of tokens left, which bounds every repetition. -/
def left : Reader Nat := do
  return (← get).length

/-- Items up to a closing symbol, which is read; commas stand between them and may follow the
last. The flag tells whether a comma was read. -/
def itemsUpTo (close : Symbol) (item : Reader α) : Nat → Reader (List α × Bool)
  | 0 => failure
  | n + 1 => do
    if ← accept close then return ([], false)
    let first ← item
    if ← accept .comma then
      let (rest, _) ← itemsUpTo close item n
      return (first :: rest, true)
    expect close
    return ([first], false)

/-- Left-associative operators of one level. -/
def chain (operand : Reader Term) (op? : Token → Option BinaryOp) : Nat → Term → Reader Term
  | 0, first => pure first
  | n + 1, first => do
    match (← peek).bind op? with
    | none => pure first
    | some op => do
      skip
      let second ← operand
      chain operand op? n (.binary op first second)

end Reader

open Reader

/-! ## Comprehensions -/

/-- A target in brackets or a name, given the reader of what stands in brackets. -/
def targetWith (inner : Symbol → Reader Target) : Reader Target := do
  if ← accept .openParen then inner .closeParen
  else if ← accept .openBracket then inner .closeBracket
  else return .name (← identifier)

/-- A target nested at most so deep. -/
def target : Nat → Reader Target
  | 0 => failure
  | n + 1 => targetWith fun close => do
    let (parts, comma) ← itemsUpTo close (target n) (← left)
    match parts, comma, close with
    | [single], false, .closeParen => return single
    | _, _, _ => return .tuple parts

/-- Targets up to the keyword `in`, which is read. -/
def targetsUpToIn (item : Reader Target) : Nat → Reader (List Target × Bool)
  | 0 => failure
  | n + 1 => do
    let first ← item
    if ← accept .comma then
      if ← acceptWord .inWord then return ([first], true)
      let (rest, _) ← targetsUpToIn item n
      return (first :: rest, true)
    expectWord .inWord
    return ([first], false)

/-- The conditions of one clause. -/
def conditions (operand : Reader Term) : Nat → Reader (List Term)
  | 0 => pure []
  | n + 1 => do
    if ← acceptWord .ifWord then
      let first ← operand
      return first :: (← conditions operand n)
    return []

/-- The clauses that follow a first `for`, which has been read. -/
def clauses (operand : Reader Term) : Nat → Reader (List Clause)
  | 0 => failure
  | n + 1 => do
    let (targets, comma) ← targetsUpToIn (target (← left)) (← left)
    let bound := match targets, comma with
      | [single], false => single
      | _, _ => .tuple targets
    let source ← operand
    let tests ← conditions operand (← left)
    let first := Clause.mk bound source tests
    if ← acceptWord .forWord then return first :: (← clauses operand n)
    return [first]

/-! ## Displays and trailers -/

/-- What stands between brackets, after the first of them: nothing, one expression, several with
commas, or an expression with the clauses of a comprehension. -/
def display (close : Symbol) (nothing : α) (single : Term → α) (several : List Term → α)
    (comprehension : Term → List Clause → α) (expr operand : Reader Term) : Reader α := do
  if ← accept close then return nothing
  let first ← expr
  if ← acceptWord .forWord then
    let cs ← clauses operand (← left)
    expect close
    return comprehension first cs
  if ← accept .comma then
    let (rest, _) ← itemsUpTo close expr (← left)
    return several (first :: rest)
  expect close
  return single first

/-- What follows an open parenthesis: nothing, one expression, a tuple or a generator. -/
def parenthesized : (expr operand : Reader Term) → Reader Term :=
  display .closeParen (.tuple []) id .tuple .generator

/-- What follows an open bracket that begins a list. -/
def bracketed : (expr operand : Reader Term) → Reader Term :=
  display .closeBracket (.list []) (fun first => .list [first]) .list .listOf

/-- A key and its value. -/
def entry (expr : Reader Term) : Reader (Term × Term) := do
  let key ← expr
  expect .colon
  return (key, ← expr)

/-- The arguments of a call, after its open parenthesis. A generator may be the only one. -/
def arguments : (expr operand : Reader Term) → Reader (List Term) :=
  display .closeParen [] (fun first => [first]) id fun first cs => [.generator first cs]

/-- A key in brackets after a subject, or the bounds of a slice. -/
inductive Subscript where
  | key (term : Term)
  | slice (low high : Option Term)

namespace Subscript

/-- The terms that a subscript is made of. -/
def terms : Subscript → List Term
  | .key term => [term]
  | .slice low high => low.toList ++ high.toList

/-- The subscripts as keys, if none of them is a slice. -/
def keys? : List Subscript → Option (List Term)
  | [] => some []
  | .key term :: rest => (keys? rest).map (term :: ·)
  | .slice .. :: _ => none

/-- What a subject has at a subscript that stands alone. -/
def applied (subject : Term) : Subscript → Term
  | .key term => .index subject term
  | .slice low high => .slice subject low high

/-- What a subject has at several subscripts. -/
def allApplied (subject : Term) (subscripts : List Subscript) : Term :=
  match keys? subscripts with
  | some keys => .index subject (.tuple keys)
  | none => .slices subject (subscripts.flatMap terms)

end Subscript

/-- A bound of a slice, unless what ends the bound comes first. -/
def sliceBound (expr : Reader Term) : Reader (Option Term) := do
  match ← peek with
  | some (.symbol .colon) => return none
  | some (.symbol .comma) => return none
  | some (.symbol .closeBracket) => return none
  | _ => return some (← expr)

/-- What follows the first bound of a slice, or the key if there is no slice. The step of a slice
is left out, with its colon or without. -/
def subscriptAfter (expr : Reader Term) (low : Option Term) : Reader Subscript := do
  if ← accept .colon then
    let high ← sliceBound expr
    let _ ← accept .colon
    return .slice low high
  match low with
  | some key => return .key key
  | none => failure

/-- A key, or a slice. -/
def subscript (expr : Reader Term) : Reader Subscript := do
  subscriptAfter expr (← sliceBound expr)

/-- What follows an open bracket after a subject. -/
def subscripts (expr : Reader Term) (subject : Term) : Reader Term := do
  let first ← subscript expr
  if ← accept .comma then
    let (rest, _) ← itemsUpTo .closeBracket (subscript expr) (← left)
    return Subscript.allApplied subject (first :: rest)
  expect .closeBracket
  return first.applied subject

/-- Attributes, calls and subscripts after a subject. -/
def trailers (expr operand : Reader Term) : Nat → Term → Reader Term
  | 0, subject => pure subject
  | n + 1, subject => do
    if ← accept .dot then
      let id ← identifier
      trailers expr operand n (.member subject id)
    else if ← accept .openParen then
      let args ← arguments expr operand
      trailers expr operand n (.call subject args)
    else if ← accept .openBracket then
      let next ← subscripts expr subject
      trailers expr operand n next
    else pure subject

/-- The strings that follow a first one. -/
def moreStrings : Nat → Reader (List Char)
  | 0 => pure []
  | n + 1 => do
    match ← peek with
    | some (.str s) => do
      skip
      return s ++ (← moreStrings n)
    | _ => pure []

/-- A literal, a name or a display. -/
def atom (expr operand : Reader Term) : Reader Term := do
  match ← peek with
  | some (.name id) => do skip; return .name id
  | some (.int n) => do skip; return .lit (.int n)
  | some (.float x) => do skip; return .lit (.float x)
  | some (.str s) => do
    skip
    return .lit (.str (String.ofList (s ++ (← moreStrings (← left)))))
  | some (.keyword .noneWord) => do skip; return .lit .none
  | some (.keyword .trueWord) => do skip; return .lit (.bool true)
  | some (.keyword .falseWord) => do skip; return .lit (.bool false)
  | some (.symbol .openParen) => do skip; parenthesized expr operand
  | some (.symbol .openBracket) => do skip; bracketed expr operand
  | some (.symbol .openBrace) => do
    skip
    return .dict (← itemsUpTo .closeBrace (entry expr) (← left)).1
  | _ => failure

/-- An atom with its trailers. -/
def primary (expr operand : Reader Term) : Reader Term := do
  let first ← atom expr operand
  trailers expr operand (← left) first

/-! ## Operators -/

/-- Signs before a primary. -/
def signed (expr operand : Reader Term) : Nat → Reader Term
  | 0 => failure
  | n + 1 => do
    if ← accept .minus then return .unary .minus (← signed expr operand n)
    else if ← accept .plus then return .unary .plus (← signed expr operand n)
    else primary expr operand

/-- Operators that bind like multiplication. -/
def productOp? : Token → Option BinaryOp
  | .symbol .star => some .mul
  | .symbol .slash => some .div
  | .symbol .slashSlash => some .floorDiv
  | .symbol .percent => some .mod
  | _ => none

/-- Operators that bind like addition. -/
def sumOp? : Token → Option BinaryOp
  | .symbol .plus => some .add
  | .symbol .minus => some .sub
  | _ => none

/-- Products of signed primaries. -/
def product (expr operand : Reader Term) : Reader Term := do
  let first ← signed expr operand ((← left) + 1)
  chain (do signed expr operand ((← left) + 1)) productOp? (← left) first

/-- Sums of products. -/
def sum (expr operand : Reader Term) : Reader Term := do
  let first ← product expr operand
  chain (product expr operand) sumOp? (← left) first

/-- The comparison operator at the start of the tokens, which is read. -/
def compareOp? : Reader (Option CompareOp) := do
  match ← get with
  | .symbol .equal :: rest => do set rest; return some .eq
  | .symbol .notEqual :: rest => do set rest; return some .ne
  | .symbol .less :: rest => do set rest; return some .lt
  | .symbol .lessEqual :: rest => do set rest; return some .le
  | .symbol .greater :: rest => do set rest; return some .gt
  | .symbol .greaterEqual :: rest => do set rest; return some .ge
  | .keyword .inWord :: rest => do set rest; return some .isIn
  | .keyword .notWord :: .keyword .inWord :: rest => do set rest; return some .notIn
  | .keyword .isWord :: .keyword .notWord :: rest => do set rest; return some .notSame
  | .keyword .isWord :: rest => do set rest; return some .same
  | _ => return none

/-- The comparisons that follow a first operand. -/
def comparisons (operand : Reader Term) : Nat → Reader (List (CompareOp × Term))
  | 0 => pure []
  | n + 1 => do
    match ← compareOp? with
    | none => return []
    | some op => do
      let right ← operand
      return (op, right) :: (← comparisons operand n)

/-- A chain of comparisons. -/
def comparison (expr operand : Reader Term) : Reader Term := do
  let first ← sum expr operand
  match ← comparisons (sum expr operand) (← left) with
  | [] => return first
  | rest => return .compare first rest

/-- Negations before a comparison. -/
def negation (expr operand : Reader Term) : Nat → Reader Term
  | 0 => failure
  | n + 1 => do
    if ← acceptWord .notWord then return .unary .not (← negation expr operand n)
    else comparison expr operand

/-- What follows an operand of `and` or of `or`. -/
def wordChain (word : Keyword) (join : Term → Term → Term) (operand : Reader Term) :
    Nat → Term → Reader Term
  | 0, first => pure first
  | n + 1, first => do
    if ← acceptWord word then wordChain word join operand n (join first (← operand))
    else pure first

/-- Conjunctions. -/
def conjunction (expr operand : Reader Term) : Reader Term := do
  let part := do negation expr operand ((← left) + 1)
  wordChain .andWord .and part (← left) (← part)

/-- Disjunctions: everything that binds closer than a choice. -/
def disjunctionWith (expr operand : Reader Term) : Reader Term := do
  let part := conjunction expr operand
  wordChain .orWord .or part (← left) (← part)

/-- A choice, or a disjunction. -/
def exprWith (expr operand : Reader Term) : Reader Term := do
  let first ← disjunctionWith expr operand
  if ← acceptWord .ifWord then
    let condition ← disjunctionWith expr operand
    expectWord .elseWord
    return .choose condition first (← expr)
  return first

/-- A disjunction and an expression, both nested at most so deep. -/
def readers : Nat → Reader Term × Reader Term
  | 0 => (failure, failure)
  | n + 1 =>
    let inner := readers n
    (exprWith inner.1 inner.2, disjunctionWith inner.1 inner.2)

/-- Nothing but line ends is left. -/
def finish : Reader Unit := do
  match (← get).dropWhile (· matches .lineEnd) with
  | [] => return ()
  | _ => failure

/-- A whole text: expressions with commas between them, then line ends. -/
def program : Reader Term := do
  -- nothing nests deeper than there are tokens
  let expr := (readers ((← left) + 1)).1
  let first ← expr
  if ← accept .comma then
    let rest ← programRest expr ((← left) + 1)
    finish
    return .tuple (first :: rest)
  finish
  return first
where
  /-- The items of a tuple without parentheses, after a comma. -/
  programRest (expr : Reader Term) : Nat → Reader (List Term)
    | 0 => failure
    | n + 1 => do
      match ← peek with
      | none => return []
      | some .lineEnd => return []
      | some _ => do
        let first ← expr
        if ← accept .comma then return first :: (← programRest expr n)
        return [first]

/-- The term that a text spells. -/
def read? (text : List Char) : Option Term := do
  let tokens ← tokens? text
  (program.run tokens).map (·.1)

end Stencil.Term
