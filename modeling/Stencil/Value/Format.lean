import Stencil.Number.Fixed
import Stencil.Value.Sequence
import Stencil.Value.Text

/-!
# Formats

A format is a text with directives, which begin with a percent sign. Each takes an argument and
tells how to write it: how wide, how precise, on which side, with which sign. Arguments come from a
tuple, one after the other, or from a mapping by their keys; any other value is a single argument.
All arguments have to be used up, unless they come from a mapping.
-/

namespace Stencil

open Number

/-- How an argument is written. -/
structure Directive where
  /-- Stand at the left, with the padding behind. -/
  leftAligned : Bool := false
  /-- Give every number a sign. -/
  signed : Bool := false
  /-- Leave a space where a sign would stand. -/
  spaced : Bool := false
  /-- Keep what could be left out: the mark of a base, a point, zeros at the end. -/
  full : Bool := false
  /-- Pad numbers with zeros. -/
  zeroPadded : Bool := false
  width : Nat := 0
  precision : Option Nat := none
  /-- The kind of text that is asked for. -/
  letter : Char
deriving Inhabited

/-- The arguments of a format that are left. -/
structure Supply where
  left : List Value
  /-- What keys are looked up in. -/
  mapping : Option Value

namespace Supply

/-- The arguments that a value stands for. -/
def ofValue : Value → Supply
  | .tuple _ items => ⟨items, none⟩
  | v@(.dict ..) | v@(.list ..) | v@(.range ..) => ⟨[v], some v⟩
  | v => ⟨[v], none⟩

/-- The next argument. -/
def next (s : Supply) : Except Fault (Value × Supply) :=
  match s.left with
  | [] => .error .wrongType
  | v :: rest => .ok (v, { s with left := rest })

/-- Have the value under a key as the only argument. -/
def select (s : Supply) (key : List Char) : Except Fault Supply :=
  match s.mapping with
  | none => .error .wrongType
  | some mapping => do
    return { s with left := [← mapping.valueAt (.ofString (String.ofList key))] }

/-- Whether no argument is left over. -/
def isUsedUp (s : Supply) : Bool :=
  s.left.isEmpty || s.mapping.isSome

end Supply

namespace Directive

/-! ## Reading -/

/-- A key up to its closing parenthesis, and what follows. Parentheses nest. -/
def splitKey : Nat → List Char → Option (List Char × List Char)
  | _, [] => none
  | 0, ')' :: rest => some ([], rest)
  | depth + 1, ')' :: rest => (splitKey depth rest).map fun (key, rest) => (')' :: key, rest)
  | depth, '(' :: rest => (splitKey (depth + 1) rest).map fun (key, rest) => ('(' :: key, rest)
  | depth, c :: rest => (splitKey depth rest).map fun (key, rest) => (c :: key, rest)

/-- A directive with the flags at the start of a text, and what follows. -/
def readFlags (d : Directive) : List Char → Directive × List Char
  | '-' :: rest => readFlags { d with leftAligned := true } rest
  | '+' :: rest => readFlags { d with signed := true } rest
  | ' ' :: rest => readFlags { d with spaced := true } rest
  | '#' :: rest => readFlags { d with full := true } rest
  | '0' :: rest => readFlags { d with zeroPadded := true } rest
  | text => (d, text)

/-- A number at the start of a text that is to be below a limit, and what follows. A star stands
for the next argument. -/
def readCount (limit : Int) (s : Supply) (text : List Char) :
    Except Fault (Option Int × Supply × List Char) :=
  match text with
  | '*' :: rest => do
    let (v, s) ← s.next
    match v.integer? with
    | none => throw .wrongType
    | some n => if n < -limit || limit ≤ n then throw .overflow else return (some n, s, rest)
  | text =>
    match takeDigits 10 false (text.takeWhile fun c => '0' ≤ c && c ≤ '9') with
    | ([], _) => .ok (none, s, text)
    | (digits, _) =>
      let n := digitsValue 10 digits
      if limit ≤ n then .error .wrongValue else .ok (some n, s, text.drop digits.length)

/-- The precision at the start of a text, if it begins with a point. -/
def readPrecision (s : Supply) : List Char → Except Fault (Option Nat × Supply × List Char)
  | '.' :: rest => do
    let (n, s, rest) ← readCount 2147483648 s rest
    return (some (n.getD 0).toNat, s, rest)
  | text => .ok (none, s, text)

/-- The directive behind a percent sign, the arguments from then on, and what follows. -/
def read (s : Supply) (text : List Char) : Except Fault (Directive × Supply × List Char) := do
  let (s, text) ←
    match text with
    | '(' :: rest =>
      if s.mapping.isNone then throw .wrongType
      match splitKey 0 rest with
      | none => throw .wrongValue
      | some (key, rest) => pure (← s.select key, rest)
    | text => pure (s, text)
  let (d, text) := readFlags { letter := 's' } text
  let (width, s, text) ← readCount Value.lengthLimit s text
  let (precision, s, text) ← readPrecision s text
  -- a letter for the size of an argument may stand here, and means nothing
  let text :=
    match text with
    | 'h' :: rest | 'l' :: rest | 'L' :: rest => rest
    | text => text
  match text with
  | [] => throw .wrongValue
  | letter :: rest =>
    let width := width.getD 0
    return ({ d with
      leftAligned := d.leftAligned || width < 0
      width := width.natAbs
      precision := precision
      letter := letter }, s, rest)

/-! ## Writing -/

/-- A number as it stands in the width that it is given: the padding is in front of its sign, or
behind it if it consists of zeros. -/
def placeNumber (d : Directive) (negative : Bool) (mark digits : List Char) : List Char :=
  let sign := if negative then ['-'] else if d.signed then ['+'] else if d.spaced then [' '] else []
  let body := sign ++ mark ++ digits
  let room := d.width - body.length
  if d.leftAligned then body ++ List.replicate room ' '
  else if d.zeroPadded then sign ++ mark ++ List.replicate room '0' ++ digits
  else List.replicate room ' ' ++ body

/-- A text as it stands in the width that it is given. -/
def placeText (d : Directive) (text : List Char) : List Char :=
  let padding := List.replicate (d.width - text.length) ' '
  if d.leftAligned then text ++ padding else padding ++ text

/-- A text without what exceeds the precision, in its place. -/
def placeCut (d : Directive) (text : List Char) : List Char :=
  d.placeText (text.take (d.precision.getD text.length))

/-- A text in capitals. -/
def capitals (text : List Char) : List Char :=
  text.map Char.toUpper

/-- An integer in a base, with the mark of the base if that is asked for. -/
def writeInt (d : Directive) (base : Nat) (mark : List Char) (n : Int) : List Char :=
  let digits := padZeros (d.precision.getD 0) (Nat.toDigits base n.natAbs)
  d.placeNumber (n < 0) (if d.full then mark else []) digits

/-- A float in a style. -/
def writeFloat (d : Directive) (style : FloatStyle) (x : Float) : List Char :=
  match styledChars style d.full (d.precision.getD 6) x with
  | '-' :: digits => d.placeNumber true [] digits
  | digits => d.placeNumber false [] digits

/-- A text whose characters beyond ASCII are shown by their numbers. -/
def plainText (text : List Char) : List Char :=
  text.flatMap fun c => if c.toNat < 128 then [c] else Text.shownCode (Text.codeOf c)

/-- The character that a value stands for: a string of one, or its number. -/
def character (v : Value) : Except Fault Char :=
  match v.string?, v.integer? with
  | some s, _ =>
    match s.toList with
    | [c] => .ok c
    | _ => .error .wrongType
  | _, some n => if 0 ≤ n && n < 0x110000 then .ok (Text.charOf n.toNat) else .error .overflow
  | _, _ => .error .wrongType

/-- The integer that a value stands for where one is asked for by its letter. -/
def integerOf (v : Value) : Except Fault Int :=
  match v.integer? with
  | some n => .ok n
  | none => .error .wrongType

/-- The quantity of a value that has to be a number. -/
def quantityOf (v : Value) : Except Fault Quantity :=
  match v.quantity? with
  | some q => .ok q
  | none => .error .wrongType

/-- An argument, written in the way that is asked for. -/
def write (d : Directive) (v : Value) : Except Fault (List Char) :=
  match d.letter with
  | 's' => do return d.placeCut (← v.text).toList
  | 'r' => do return d.placeCut (← v.shown).toList
  | 'a' => do return d.placeCut (plainText (← v.shown).toList)
  | 'c' => do return d.placeText [← character v]
  | 'd' | 'i' | 'u' => do
    let n ← (← quantityOf v).truncated
    let _ ← shownInt n
    return d.writeInt 10 [] n
  | 'o' => do return d.writeInt 8 ['0', 'o'] (← integerOf v)
  | 'x' => do return d.writeInt 16 ['0', 'x'] (← integerOf v)
  | 'X' => do return capitals (d.writeInt 16 ['0', 'x'] (← integerOf v))
  | 'e' => do return d.writeFloat .exponent (← (← quantityOf v).toFloat)
  | 'f' => do return d.writeFloat .places (← (← quantityOf v).toFloat)
  | 'g' => do return d.writeFloat .general (← (← quantityOf v).toFloat)
  | 'E' => do return capitals (d.writeFloat .exponent (← (← quantityOf v).toFloat))
  | 'F' => do return capitals (d.writeFloat .places (← (← quantityOf v).toFloat))
  | 'G' => do return capitals (d.writeFloat .general (← (← quantityOf v).toFloat))
  | _ => .error .wrongValue

end Directive

namespace Value

/-- The text that a format makes of arguments. The first argument bounds the number of steps. -/
def formatFrom : Nat → List Char → Supply → Except Fault (List Char)
  | 0, _, _ => .ok []
  | _, [], s => if s.isUsedUp then .ok [] else .error .wrongType
  | n + 1, '%' :: '%' :: rest, s => do return '%' :: (← formatFrom n rest s)
  | n + 1, '%' :: rest, s => do
    let (d, s, rest) ← Directive.read s rest
    let (v, s) ← s.next
    if memoryLimit ≤ d.width then throw .outOfMemory
    let text ← d.write v
    return text ++ (← formatFrom n rest s)
  | n + 1, c :: rest, s => do return c :: (← formatFrom n rest s)

/-- The argument of a format that is but one directive, if that has nothing to add, as a text. -/
def onlyText? (text : List Char) (s : Supply) : Option Value :=
  match text with
  | '%' :: rest =>
    match Directive.read s rest with
    | .ok (d, s, []) =>
      if d.signed || d.spaced then Option.none
      else match s.next, d.letter with
      | .ok (.bool b, _), 's' | .ok (.bool b, _), 'r' | .ok (.bool b, _), 'a' =>
        (Value.bool b).toText.toOption
      | .ok (v@(.str ..), _), 's' | .ok (v@(.rendered ..), _), 's'
      | .ok (v@(.derived ..), _), 's' => v.toText.toOption
      | _, _ => Option.none
    | _ => Option.none
  | _ => Option.none

/-- The string that a format makes of arguments. A format without directives, and a text that comes
out as it is, stays the same. -/
def format (subject : Value) (text : List Char) (arguments : Value) : Except Fault Value := do
  let supply := Supply.ofValue arguments
  let out := String.ofList (← formatFrom (text.length + 1) text supply)
  if !text.contains '%' then return if text.isEmpty then .ofString "" else subject
  match onlyText? text supply with
  | some (.str m s) => if s == out then return .str m s else return .ofPiece out
  | _ => return .ofPiece out

end Value

end Stencil
