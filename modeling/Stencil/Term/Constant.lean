import Stencil.Term.Basic
import Stencil.Number.Binary

/-!
# Constants

A term is constant if it is built from literals by tuples, lists and dicts, where a number may have
one sign. Conditions made of constants are decided when a template is compiled. Operators on
constants do not make constants.

There is no literal for the empty set, so the call `set()` counts as one. A scope in which `set` is
something else is not asked.
-/

namespace Stencil

open Number

/-- The value of a constant term. -/
inductive Constant where
  | none
  | bool (b : Bool)
  | int (n : Int)
  | float (x : Float)
  | str (s : String)
  | tuple (items : List Constant)
  | list (items : List Constant)
  | dict (entries : List (Constant × Constant))
  | emptySet

namespace Constant

/-- The value of a literal. -/
def ofLit : Lit → Constant
  | .none => .none
  | .bool b => .bool b
  | .int n => .int n
  | .float x => .float x
  | .str s => .str s

/-- Whether the value counts as true: everything but `None`, `False`, zeros and what is empty. -/
def truth : Constant → Bool
  | .none => false
  | .bool b => b
  | .int n => n != 0
  | .float x => x != 0
  | .str s => !s.isEmpty
  | .tuple items => !items.isEmpty
  | .list items => !items.isEmpty
  | .dict entries => !entries.isEmpty
  | .emptySet => false

/-! ## Keys of dicts -/

mutual

/-- Whether the value may be a key: lists, dicts and sets may not, nor tuples that hold one. -/
def isKey : Constant → Bool
  | .list _ => false
  | .dict _ => false
  | .emptySet => false
  | .tuple items => areKeys items
  | _ => true

/-- Whether all values may be keys. -/
def areKeys : List Constant → Bool
  | [] => true
  | c :: rest => c.isKey && areKeys rest

end

/-- The integer that a boolean or an integer is. -/
def asInt? : Constant → Option Int
  | .bool b => some (if b then 1 else 0)
  | .int n => some n
  | _ => Option.none

mutual

/-- Whether two keys are one. Numbers are compared by value, whatever their kind. -/
def sameKey : Constant → Constant → Bool
  | .none, .none => true
  | .str a, .str b => a == b
  | .float x, .float y => x == y
  | .float x, b => match b.asInt? with
    | some n => compareInt n x == some .eq
    | Option.none => false
  | a, .float y => match a.asInt? with
    | some n => compareInt n y == some .eq
    | Option.none => false
  | .tuple as, .tuple bs => sameKeys as bs
  | a, b => match a.asInt?, b.asInt? with
    | some n, some k => n == k
    | _, _ => false

/-- Whether two lists of keys are equal item by item. -/
def sameKeys : List Constant → List Constant → Bool
  | [], [] => true
  | a :: as, b :: bs => a.sameKey b && sameKeys as bs
  | _, _ => false

end

/-- Entries with one more: a key that is present keeps its place and gets the new value. -/
def insertEntry (key value : Constant) :
    List (Constant × Constant) → List (Constant × Constant)
  | [] => [(key, value)]
  | (k, v) :: rest =>
    if k.sameKey key then (k, value) :: rest else (k, v) :: insertEntry key value rest

/-- The dict with the given entries, written in this order. -/
def ofEntries? (entries : List (Constant × Constant)) : Option Constant :=
  if entries.all fun (k, _) => k.isKey then
    some (.dict (entries.foldl (fun done (k, v) => insertEntry k v done) []))
  else Option.none

end Constant

namespace Term

/-- The number with a sign. -/
def signedConstant? (negative : Bool) : Term → Option Constant
  | .lit (.int n) => some (.int (if negative then -n else n))
  | .lit (.float x) => some (.float (if negative then -x else x))
  | _ => none

/-- Whether a call is the one that makes the empty set. -/
def makesEmptySet : Term → List Term → Bool
  | .name id, [] => id == "set"
  | _, _ => false

mutual

/-- The value of a constant term. -/
def constant? : Term → Option Constant
  | .lit value => some (Constant.ofLit value)
  | .tuple items => (constants? items).map .tuple
  | .list items => (constants? items).map .list
  | .dict entries => do Constant.ofEntries? (← constantEntries? entries)
  | .unary .minus operand => signedConstant? true operand
  | .unary .plus operand => signedConstant? false operand
  | .call function arguments => if makesEmptySet function arguments then some .emptySet else none
  | _ => none

/-- The values of constant terms. -/
def constants? : List Term → Option (List Constant)
  | [] => some []
  | t :: rest => do return (← t.constant?) :: (← constants? rest)

/-- The values of constant entries. -/
def constantEntries? : List (Term × Term) → Option (List (Constant × Constant))
  | [] => some []
  | (k, v) :: rest => do return (← k.constant?, ← v.constant?) :: (← constantEntries? rest)

end

mutual

/-- Whether the term is made of literals by operators, tuples and indices, so that its value is
known once and for all. -/
def isFixed : Term → Bool
  | .lit _ => true
  | .tuple items => areFixed items
  | .unary _ operand => operand.isFixed
  | .binary _ left right => left.isFixed && right.isFixed
  | .index subject key => subject.isFixed && key.isFixed
  | _ => false

/-- Whether all terms are made of literals in this way. -/
def areFixed : List Term → Bool
  | [] => true
  | t :: rest => t.isFixed && areFixed rest

end

/-- Whether the term is one string literal. -/
def isString : Term → Bool
  | .lit (.str _) => true
  | _ => false

end Term

end Stencil
