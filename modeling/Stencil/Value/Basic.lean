import Stencil.Template
import Stencil.Value.Mark

/-!
# Values

What expressions evaluate to and what templates are rendered with. Values that can be told apart
from their equals carry a mark. One-shot iterators stand for a place in the store of a render,
where what is left of them is kept.
-/

namespace Stencil

/-- A number or a string. -/
inductive Scalar where
  | int (n : Int)
  | float (x : Float)
  | str (s : String)

/-- The classes that can be had as values. -/
inductive Kind where
  | lazy
  | raw
  | template
deriving DecidableEq, Repr

/-- The functions that every expression can call. -/
inductive Builtin where
  | len
  | str
  | range
  | list
  | sorted
  | sum
  | min
  | max
  | abs
  | enumerate
  | zip
  | repr
  | bool
  | int
  | float
  | set
deriving DecidableEq, Repr

/-- The components that are at hand without writing any. -/
inductive Component where
  | upper
  | nothing
  | seven
  | drop
  | fail
  | text
  | peek
  | badge
  | echo
  | wrap
  | twice
  | box
deriving DecidableEq, Repr

/-- The functions that are members of values. -/
inductive Method where
  | upper
  | lower
  | strip
  | join
  | replace
  | split
  | startsWith
  | endsWith
  | get
  | items
  | keys
  | values
  | render
  | renderTo
  | bind
  | create
deriving DecidableEq, Repr

/-- What a view of a dict shows. -/
inductive ViewKind where
  | keys
  | values
  | items
deriving DecidableEq, Repr

/-- Where the values of a one-shot iterator come from. -/
inductive IteratorKind where
  /-- From a list. -/
  | listed
  /-- From other values, with numbers put in front. -/
  | numbered
  /-- From several others, side by side. -/
  | zipped
  /-- From a comprehension that is evaluated step by step. -/
  | generated
deriving DecidableEq, Repr

mutual

/-- A value. -/
inductive Value where
  | none
  | bool (b : Bool)
  | int (mark : Mark) (n : Int)
  | float (mark : Mark) (x : Float)
  | str (mark : Mark) (s : String)
  | list (mark : Mark) (items : List Value)
  | tuple (mark : Mark) (items : List Value)
  | dict (mark : Mark) (entries : List (Value × Value))
  | view (mark : Mark) (kind : ViewKind) (entries : List (Value × Value))
  /-- Made from values, or what is left of a view when other things are taken away. -/
  | set (mark : Mark) (items : List Value)
  | range (mark : Mark) (start stop step : Int)
  /-- What is left of it is in the store, under its number. -/
  | iterator (kind : IteratorKind) (id : Nat)
  | object (mark : Mark) (members : List (String × Value))
  /-- A part of a template: its fields, which are shown side by side or as a tuple, and what it has
  besides them. -/
  | record (mark : Mark) (label : String) (tupled : Bool) (fields : List (String × Value))
      (more : List (String × Value))
  /-- Trusted markup, which is written as it is. Its text is a string with a mark of its own. -/
  | raw (mark textMark : Mark) (markup : String)
  /-- The text of a complete render: a string, and markup where markup is asked for. -/
  | rendered (mark : Mark) (markup : String)
  /-- A number or string of a kind of its own, with a text of its own. -/
  | derived (mark : Mark) (scalar : Scalar) (text : String)
  | template (mark : Mark) (template : Template)
  /-- A deferred render. -/
  | lazy (mark : Mark) (action : Deferred)
  | component (component : Component)
  | builtin (function : Builtin)
  | method (mark : Mark) (subject : Value) (method : Method)
  | kind (kind : Kind)
  /-- The buffer that is written to. -/
  | output

/-- What a deferred render does. -/
inductive Deferred where
  /-- Render a template with a context. -/
  | bound (template : Template) (context : List (String × Value))
  /-- Run the children of a component. Their plan is in the store, under its number. -/
  | children (id : Nat)
  /-- Write step by step. -/
  | steps (steps : List Step)
  /-- Call a function with the buffer. -/
  | call (function : Value)

/-- A step of a deferred render. -/
inductive Step where
  /-- Append the text of a value, escaped. -/
  | push (value : Value)
  /-- Append a text as it is. -/
  | raw (text : String)
  /-- Append a value as element content. -/
  | write (value : Value)
  /-- Let a value render itself. -/
  | renderTo (value : Value)
  /-- Ask for the text of the buffer. -/
  | contents

end

instance : Inhabited Value := ⟨.none⟩

/-- The names that an expression can see; the first entry of a name counts. -/
abbrev Scope := List (String × Value)

/-- Arguments by name, each name once. -/
abbrev Arguments := List (String × Value)

/-- Arguments with one more: a name that is present keeps its place and gets the new value. -/
def Arguments.insert (name : String) (value : Value) : Arguments → Arguments
  | [] => [(name, value)]
  | (n, v) :: rest =>
    if n = name then (n, value) :: rest else (n, v) :: Arguments.insert name value rest

mutual

/-- A constant of the expression at a place as a value. -/
def Constant.toValue (place : Option Location) : Constant → Value
  | .none => .none
  | .bool b => .bool b
  | .int n => .int (.written place) n
  | .float x => .float (.ofFloat place x) x
  | .str s => .str (.ofConstant place s) s
  | .tuple items => .tuple .fresh (Constant.toValues place items)
  | .list items => .list .fresh (Constant.toValues place items)
  | .dict entries => .dict .fresh (Constant.toEntries place entries)
  | .emptySet => .set .fresh []

/-- Constants as values. -/
def Constant.toValues (place : Option Location) : List Constant → List Value
  | [] => []
  | c :: rest => c.toValue place :: Constant.toValues place rest

/-- Entries of constants as entries of values. -/
def Constant.toEntries (place : Option Location) :
    List (Constant × Constant) → List (Value × Value)
  | [] => []
  | (k, v) :: rest => (k.toValue place, v.toValue place) :: Constant.toEntries place rest

end

/-- The word for the kind of an iterator. -/
def IteratorKind.word : IteratorKind → String
  | .listed => "list_iterator"
  | .numbered => "enumerate"
  | .zipped => "zip"
  | .generated => "generator"

namespace Value

/-! ## New values -/

/-- A new integer. -/
def ofInt (n : Int) : Value := .int .fresh n

/-- A new float. -/
def ofFloat (x : Float) : Value := .float .fresh x

/-- A new string. -/
def ofString (s : String) : Value := .str .fresh s

/-- A string that was cut out of another. -/
def ofPiece (s : String) : Value := .str (.ofPiece s) s

/-- A new list. -/
def ofList (items : List Value) : Value := .list .fresh items

/-- A new tuple. -/
def ofTuple (items : List Value) : Value := .tuple .fresh items

/-! ## Kinds -/

/-- The word for the kind of a value. -/
def kindName : Value → String
  | .none => "NoneType"
  | .bool _ => "bool"
  | .int .. => "int"
  | .float .. => "float"
  | .str .. => "str"
  | .list .. => "list"
  | .tuple .. => "tuple"
  | .dict .. => "dict"
  | .view _ .keys _ => "dict_keys"
  | .view _ .values _ => "dict_values"
  | .view _ .items _ => "dict_items"
  | .set .. => "set"
  | .range .. => "range"
  | .iterator source _ => source.word
  | .object .. => "Obj"
  | .record _ label .. => label
  | .raw .. => "Raw"
  | .rendered .. => "Rendered"
  | .derived .. => "Sub"
  | .template .. => "Template"
  | .lazy .. => "Lazy"
  | .component _ => "function"
  | .builtin _ => "builtin_function_or_method"
  | .method .. => "method"
  | .kind _ => "type"
  | .output => "Buffer"

/-- The characters of a value that is a string, whatever its kind. -/
def string? : Value → Option String
  | .str _ s => some s
  | .rendered _ s => some s
  | .derived _ (.str s) _ => some s
  | _ => Option.none

/-- The integer of a value that is one, truth values included. -/
def integer? : Value → Option Int
  | .bool b => some (if b then 1 else 0)
  | .int _ n => some n
  | .derived _ (.int n) _ => some n
  | _ => Option.none

/-- A string as one that has no kind of its own. A string that is so already stays the same. -/
def plainString : Value → Value
  | .rendered _ s => .ofString s
  | .derived _ (.str s) _ => .ofString s
  | v => v

/-- Whether a value can be called. -/
def isCallable : Value → Bool
  | .template .. => true
  | .component _ => true
  | .builtin _ => true
  | .method .. => true
  | .kind _ => true
  | _ => false

mutual

/-- Whether a value may be a key: what can change may not, nor tuples that hold such a value. -/
def isKey : Value → Bool
  | .list .. => false
  | .dict .. => false
  | .set .. => false
  | .raw .. => false
  | .record .. => false
  | .view _ .keys _ => false
  | .view _ .items _ => false
  | .tuple _ items => areKeys items
  | _ => true

/-- Whether all values may be keys. -/
def areKeys : List Value → Bool
  | [] => true
  | v :: rest => v.isKey && areKeys rest

end

/-- The value of a name in arguments or among members. -/
def named? (name : String) : List (String × Value) → Option Value
  | [] => Option.none
  | (n, v) :: rest => if n = name then some v else named? name rest

end Value

end Stencil
