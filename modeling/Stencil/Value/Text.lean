import Stencil.Number.Read
import Stencil.Number.Shortest
import Stencil.Render.Fault
import Stencil.Value.Basic

/-!
# The text of values

A value has two texts: the one that is written when it is output, and the one it is shown by inside
other values, where strings stand in quotes. Both fail only for integers that have too many digits.
-/

namespace Stencil

open Number

/-- An integer as it is shown, unless it has too many digits. -/
def shownInt (n : Int) : Except Fault String :=
  if tenTo digitLimit ≤ n.natAbs then .error .wrongValue else .ok (intText n)

/-- A number or a string as it is shown. -/
def Scalar.shown : Scalar → Except Fault String
  | .int n => shownInt n
  | .float x => .ok (floatText x)
  | .str s => .ok (Text.shown s)

/-- A class as it is shown. -/
def Kind.shown : Kind → String
  | .lazy => "<class 'hypertext.runtime.Lazy'>"
  | .raw => "<class 'hypertext.runtime.Raw'>"
  | .template => "<class 'hypertext.template.Template'>"

/-- The name of a function. -/
def Builtin.name : Builtin → String
  | .len => "len"
  | .str => "str"
  | .range => "range"
  | .list => "list"
  | .sorted => "sorted"
  | .sum => "sum"
  | .min => "min"
  | .max => "max"
  | .abs => "abs"
  | .enumerate => "enumerate"
  | .zip => "zip"
  | .repr => "repr"
  | .bool => "bool"
  | .int => "int"
  | .float => "float"
  | .set => "set"

/-- All functions that every expression can call. -/
def Builtin.all : List Builtin :=
  [.len, .str, .range, .list, .sorted, .sum, .min, .max, .abs, .enumerate, .zip, .repr, .bool, .int,
    .float, .set]

/-- The function of a name. -/
def Builtin.ofName? (name : String) : Option Builtin :=
  Builtin.all.find? fun f => f.name == name

/-- Whether a function makes values of the kind that it names. -/
def Builtin.isKind : Builtin → Bool
  | .len | .sorted | .sum | .min | .max | .abs | .repr => false
  | _ => true

/-- A function as it is shown. -/
def Builtin.shown (f : Builtin) : String :=
  if f.isKind then s!"<class '{f.name}'>" else s!"<built-in function {f.name}>"

/-- The name of a method. -/
def Method.name : Method → String
  | .upper => "upper"
  | .lower => "lower"
  | .strip => "strip"
  | .join => "join"
  | .replace => "replace"
  | .split => "split"
  | .startsWith => "startswith"
  | .endsWith => "endswith"
  | .get => "get"
  | .items => "items"
  | .keys => "keys"
  | .values => "values"
  | .render => "render"
  | .renderTo => "render_to"
  | .bind => "bind"
  | .create => "dangerously_create"

/-- The name of a class. -/
def Kind.name : Kind → String
  | .lazy => "Lazy"
  | .raw => "Raw"
  | .template => "Template"

/-- The class of a value that is one of the classes of renders, or has one. -/
def Value.renderKind? : Value → Option Kind
  | .template .. => some .template
  | .lazy .. => some .lazy
  | .raw .. => some .raw
  | .kind k => some k
  | _ => Option.none

/-- Whether a method is taken from a class, which leaves open whose method it is. -/
def Method.isUnbound (m : Method) : Value → Bool
  | .kind _ => m != .create
  | _ => false

namespace Value

/-- What is shown by its kind and the place where it is kept. Places mean nothing, so all of them
are shown as one. -/
def placed (kind : String) : String :=
  s!"<{kind} at 0x7f0000000000>"

/-- Texts between braces. -/
def braced (texts : List String) : String :=
  "\x7b" ++ ", ".intercalate texts ++ "\x7d"

mutual

/-- The value as it is shown inside other values. -/
def shown : Value → Except Fault String
  | .none => .ok "None"
  | .bool b => .ok (showBool b)
  | .int _ n => shownInt n
  | .float _ x => .ok (floatText x)
  | .str _ s => .ok (Text.shown s)
  | .list _ items => do return showList (← shownAll items)
  | .tuple _ items => do return showTuple (← shownAll items)
  | .dict _ entries => do return braced (← shownEntries entries)
  | .view _ .keys entries => do
    let list := showList (← shownKeys entries)
    return s!"dict_keys({list})"
  | .view _ .values entries => do
    let list := showList (← shownValues entries)
    return s!"dict_values({list})"
  | .view _ .items entries => do
    let list := showList (← shownPairs entries)
    return s!"dict_items({list})"
  | .set _ [] => .ok "set()"
  | .set _ items => do return braced (← shownAll items)
  | .range _ start stop step => do
    let start ← shownInt start
    let stop ← shownInt stop
    if step == 1 then return s!"range({start}, {stop})"
    let step ← shownInt step
    return s!"range({start}, {stop}, {step})"
  | .iterator .generated _ => .ok (placed "generator object <genexpr>")
  | .iterator source _ => .ok (placed s!"{source.word} object")
  | .object .. => .ok (placed "Obj object")
  | .record _ label true fields _ => do return label ++ showTuple (← shownFields fields)
  | .record _ label false fields _ => do
    return label ++ "(" ++ ", ".intercalate (← shownFields fields) ++ ")"
  | .raw _ _ markup => .ok s!"Raw({Text.shown markup})"
  | .rendered _ markup => .ok (Text.shown markup)
  | .derived _ scalar _ => scalar.shown
  | .template _ t => .ok t.label
  | .lazy .. => .ok (placed "hypertext.runtime.Lazy object")
  | .component _ => .ok (placed "function")
  | .builtin f => .ok f.shown
  | .method _ (.builtin .str) m => .ok s!"<method '{m.name}' of 'str' objects>"
  | .method _ subject m => do
    match subject.renderKind? with
    | some k =>
      if m.isUnbound subject then return placed s!"function {k.name}.{m.name}"
      let subject ← subject.shown
      return s!"<bound method {k.name}.{m.name} of {subject}>"
    | Option.none => return placed s!"built-in method {m.name} of {subject.kindName} object"
  | .kind k => .ok k.shown
  | .output => .ok (placed "hypertext.runtime.Buffer object")

/-- Values as they are shown. -/
def shownAll : List Value → Except Fault (List String)
  | [] => .ok []
  | v :: rest => do return (← v.shown) :: (← shownAll rest)

/-- The fields of a record as they are shown. -/
def shownFields : List (String × Value) → Except Fault (List String)
  | [] => .ok []
  | (_, v) :: rest => do return (← v.shown) :: (← shownFields rest)

/-- The entries of a dict as they are shown. -/
def shownEntries : List (Value × Value) → Except Fault (List String)
  | [] => .ok []
  | (k, v) :: rest => do
    let key ← k.shown
    let value ← v.shown
    return s!"{key}: {value}" :: (← shownEntries rest)

/-- The keys of a dict as they are shown. -/
def shownKeys : List (Value × Value) → Except Fault (List String)
  | [] => .ok []
  | (k, _) :: rest => do return (← k.shown) :: (← shownKeys rest)

/-- The values of a dict as they are shown. -/
def shownValues : List (Value × Value) → Except Fault (List String)
  | [] => .ok []
  | (_, v) :: rest => do return (← v.shown) :: (← shownValues rest)

/-- The entries of a dict, shown as pairs. -/
def shownPairs : List (Value × Value) → Except Fault (List String)
  | [] => .ok []
  | (k, v) :: rest => do
    let key ← k.shown
    return showTuple [key, ← v.shown] :: (← shownPairs rest)

end

/-- The text of the value. -/
def text : Value → Except Fault String
  | .str _ s => .ok s
  | .rendered _ s => .ok s
  | .derived _ _ text => .ok text
  | v => v.shown

/-- The text of the value as a string. A string is its own text. -/
def toText : Value → Except Fault Value
  | .str m s => .ok (.str m s)
  | .bool b => .ok (.str .stock (showBool b))
  | .rendered _ s => .ok (.ofString s)
  | .derived m _ text => .ok (.str (if Mark.isStocked text then .stock else m) text)
  | v => do return .ofString (← v.text)

/-- Whether the value is a number that has the usual text. -/
def isNumber : Value → Bool
  | .int .. => true
  | .float .. => true
  | _ => false

/-- The text that is written for the value: none for `None`. -/
def written (v : Value) : Except Fault String :=
  match v with
  | .none => .ok ""
  | v => v.text

/-- Whether the text that is written may hold characters that have to be escaped. -/
def needsEscaping (v : Value) : Bool :=
  match v with
  | .none => false
  | v => !v.isNumber

/-- The markup that is written for the value as text. -/
def markup (v : Value) : Except Fault String := do
  let text ← v.written
  return if v.needsEscaping then Text.escape text else text

/-- The texts of values, joined by single spaces; empty texts are left out. -/
def joined (values : List Value) : Except Fault String := do
  return Generate.joinTexts (← values.mapM written)

end Value

end Stencil
