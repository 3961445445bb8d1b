import Stencil.Render.Feed
import Stencil.Text.Case
import Stencil.Text.Search
import Stencil.Value.Entries

/-!
# Methods of strings and dicts
-/

namespace Stencil

open Text

/-- The characters of a value that has to be a string. -/
def Value.chars (v : Value) : Except Fault (List Char) :=
  match v.string? with
  | some s => .ok s.toList
  | Option.none => .error .wrongType

/-- A new string made of characters. -/
def Value.ofChars (chars : List Char) : Value :=
  .ofString (String.ofList chars)

/-- What is left of a string: the string itself if nothing was taken away, else a piece of it. -/
def Value.keeping (subject : Value) (text chars : List Char) : Value :=
  if chars.length = text.length then subject.plainString else .ofPiece (String.ofList chars)

/-- A count that has to be an integer which things can be counted with. -/
def Value.counter (v : Value) : Except Fault Int :=
  match v.integer? with
  | some n =>
    if n < -Value.lengthLimit || Value.lengthLimit ≤ n then .error .overflow else .ok n
  | Option.none => .error .wrongType

namespace Method

/-- How often something is done at most: as often as there is occasion, if the number is below
zero. -/
def atMost (text : List Char) (count : Int) : Nat :=
  if count < 0 then text.length + 1 else count.toNat

/-- How many bytes each character of a text takes, so that there is room for all of them. -/
def widthOf (text : List Char) : Nat :=
  if text.all fun c => codeOf c < 0x100 then 1
  else if text.all fun c => codeOf c < 0x10000 then 2
  else 4

/-- Whether a text is too short, or its characters too narrow, for another to occur in it. -/
def cannotHold (text part : List Char) : Bool :=
  text.length < part.length || widthOf text < widthOf part

/-- The list of the pieces of a string. A string that is its only piece stays the same, unless it was
cut at blanks and no cut was allowed. -/
def listPieces (subject : Value) (text : List Char) (uncut : Bool) (found : List (List Char)) :
    Value :=
  match subject, found with
  | .str .., [whole] =>
    .ofList [if uncut then .ofPiece (String.ofList whole) else subject.keeping text whole]
  | _, found => .ofList (found.map fun piece => .ofPiece (String.ofList piece))

/-- The pieces of a string, cut at a separator or, if that is `None`, at blanks. A string that
cannot have the separator in it stays the same. -/
def pieces (subject : Value) (text : List Char) (separator : Value) (cuts : Nat) :
    Except Fault Value :=
  match separator with
  | .none => .ok (listPieces subject text (cuts == 0) (wordsAtMost cuts text))
  | separator => do
    let mark ← separator.chars
    if mark.isEmpty then throw .wrongValue
    if cannotHold text mark then return .ofList [subject]
    return listPieces subject text false (splitAtMost mark cuts text)

/-- A string with one text for another, so often at most. -/
def replaced (subject : Value) (text : List Char) (old new : Value) (count : Int) :
    Except Fault Value := do
  let before ← old.chars
  let after ← new.chars
  let out := replaceAtMost before after (atMost text count) text
  let untouched := count == 0 || old.identical new || !occursIn before text
  if untouched then return subject.plainString else return .ofChars out

/-- Whether one of some texts, which are looked at one after the other, passes a test. -/
def anyChars (test : List Char → Bool) : List Value → Except Fault Bool
  | [] => .ok false
  | v :: rest => do
    if test (← v.chars) then return true else anyChars test rest

/-- Whether the part of a text between two bounds begins, or ends, with one of some texts. -/
def edge (test : List Char → List Char → Bool) (text : List Char) (parts low high : Value) :
    Except Fault Value := do
  let start ← Value.bound text.length 0 low
  let stop ← Value.bound text.length text.length high
  -- a start behind the end is not moved to the end here, as it is for a slice
  let beyond := match low.integer? with
    | some n => decide ((text.length : Int) < n)
    | none => false
  let part := Value.between start stop text
  let possible := !beyond && start ≤ stop
  let choices := match parts with
    | .tuple _ choices => choices
    | one => [one]
  return .bool (← anyChars (fun p => possible && test p part) choices)

/-- The result of a method of a string that takes no values one by one. -/
def onString (m : Method) (subject : Value) (text : List Char) (arguments : List Value) :
    Except Fault Value :=
  match m, arguments with
  | .upper, [] => .ok (.ofChars (Text.upper text))
  | .lower, [] => .ok (.ofChars (Text.lower text))
  | .strip, [] => .ok (subject.keeping text (trim text))
  | .strip, [.none] => .ok (subject.keeping text (trim text))
  | .strip, [set] => do return subject.keeping text (trimSet (← set.chars) text)
  | .replace, [old, new] => replaced subject text old new (-1)
  | .replace, [old, new, count] => do
    let _ ← old.chars
    let _ ← new.chars
    replaced subject text old new (← count.counter)
  | .split, [] => pieces subject text .none (atMost text (-1))
  | .split, [mark] => pieces subject text mark (atMost text (-1))
  | .split, [mark, cuts] => do pieces subject text mark (atMost text (← cuts.counter))
  | .startsWith, [parts] => edge List.isPrefixOf text parts .none .none
  | .startsWith, [parts, low] => edge List.isPrefixOf text parts low .none
  | .startsWith, [parts, low, high] => edge List.isPrefixOf text parts low high
  | .endsWith, [parts] => edge List.isSuffixOf text parts .none .none
  | .endsWith, [parts, low] => edge List.isSuffixOf text parts low .none
  | .endsWith, [parts, low, high] => edge List.isSuffixOf text parts low high
  | _, _ => .error .wrongType

/-- The result of a method of a dict. -/
def onDict (m : Method) (entries : List (Value × Value)) (arguments : List Value) :
    Except Fault Value :=
  let get (key other : Value) : Except Fault Value :=
    if key.isKey then .ok ((Value.find? key entries).getD other) else .error .wrongType
  match m, arguments with
  | .get, [key] => get key .none
  | .get, [key, other] => get key other
  | .keys, [] => .ok (.view .fresh .keys entries)
  | .values, [] => .ok (.view .fresh .values entries)
  | .items, [] => .ok (.view .fresh .items entries)
  | _, _ => .error .wrongType

/-- Strings, joined by another. A single string stays the same. -/
def joined (mark : List Char) (parts : List Value) : Except Fault Value := do
  let texts ← parts.mapM Value.chars
  match parts with
  | [.str m s] => return .str m s
  | _ => return .ofChars (mark.intercalate texts)

variable (run : Runner)

/-- The result of a method of a string or a dict. -/
def onSubject (m : Method) (subject : Value) (arguments : List Value) : Render Value := do
  match m, subject, arguments with
  | .join, subject, [v] =>
    let mark ← Render.result subject.chars
    Render.result (joined mark (← Render.drain run v))
  | m, .dict _ entries, arguments => Render.result (onDict m entries arguments)
  | m, subject, arguments =>
    Render.result (onString m subject (← Render.result subject.chars) arguments)

/-- Arguments that are all given by place, or all by name, in their places. -/
def inPlace (m : Method) (given : List Value) (named : Arguments) : Except Fault (List Value) :=
  match m, given, named with
  | _, given, [] => .ok given
  | .split, [], [("sep", mark)] => .ok [mark]
  | .split, [], [("maxsplit", cuts)] => .ok [.none, cuts]
  | .split, [], [("sep", mark), ("maxsplit", cuts)] => .ok [mark, cuts]
  | .split, [], [("maxsplit", cuts), ("sep", mark)] => .ok [mark, cuts]
  | _, _, _ => .error .wrongType

/-- The result of a method of a string or a dict. A method of all strings is given one of them as
its first argument. -/
def onContainer (m : Method) (subject : Value) (given : List Value) (named : Arguments) :
    Render Value := do
  match subject, given with
  | .builtin .str, v :: rest =>
    if v.string?.isSome then onSubject run m v (← Render.result (m.inPlace rest named))
    else throw .wrongType
  | .builtin .str, [] => throw .wrongType
  | subject, given => onSubject run m subject (← Render.result (m.inPlace given named))

end Method

end Stencil
