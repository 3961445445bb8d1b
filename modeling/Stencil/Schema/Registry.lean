import Stencil.Schema.Entry
import Stencil.Schema.Html

/-!
# Registries

A registry knows which elements there are and which attributes they have. An application may
extend it until it is used for the first time; from then on it is frozen, so a template that was
checked once stays valid.
-/

namespace Stencil.Schema

/-- The changes that an application can ask for. -/
inductive Change where
  | register (name : String)
  | allowCustom
  | enable
deriving DecidableEq, Repr

/-- Why a change is refused. -/
inductive ChangeError where
  /-- The registry is in use. -/
  | frozen (change : Change)
  /-- An element of this name is there already. -/
  | duplicate (name : String)
  /-- There is no family of this name. -/
  | unknownFamily (name : String)
deriving DecidableEq, Repr

namespace Change

/-- What was asked for. -/
def phrase : Change → String
  | .register name => s!"register element <{name}>"
  | .allowCustom => "allow custom elements"
  | .enable => "enable attribute families"

end Change

namespace ChangeError

/-- What went wrong. -/
def description : ChangeError → String
  | .frozen change =>
    s!"cannot {change.phrase}: the schema registry has already been used for validation"
  | .duplicate name => s!"element <{name}> is already registered"
  | .unknownFamily name =>
    let known := ", ".intercalate (Family.all.map Family.name)
    s!"unknown attribute family '{name}', expected one of: {known}"

/-- What the application can do. -/
def hint? : ChangeError → Option String
  | .frozen _ => some "extend the registry at startup, before any template is compiled"
  | .duplicate _ => some "choose a different name or register the element only once"
  | .unknownFamily _ => none

end ChangeError

/-- A table of elements with the extensions that are switched on. -/
structure Registry where
  entries : List Entry := []
  families : List Family := []
  /-- Whether every custom element is accepted. -/
  customElements : Bool := false
  frozen : Bool := false
deriving DecidableEq, Repr, Inhabited

/-! ## Names of custom elements -/

/-- A character of the name of a custom element. -/
def isCustomNameChar (c : Char) : Bool :=
  ('a' ≤ c && c ≤ 'z') || ('0' ≤ c && c ≤ '9') || c == '.' || c == '_' || c == '-'

/-- Whether a text is small letters, digits, points, underscores and hyphens, a letter first and
at least one hyphen. -/
def isCustomForm : List Char → Bool
  | [] => false
  | c :: rest => 'a' ≤ c && c ≤ 'z' && rest.all isCustomNameChar && rest.contains '-'

/-- The text without the newline that it ends with, if it does. -/
def dropFinalNewline (text : List Char) : List Char :=
  if text.getLast? = some '\n' then text.dropLast else text

/-- Whether a name is one of a custom element. A newline at its end does not count. -/
def isCustomName (name : String) : Bool :=
  isCustomForm (dropFinalNewline name.toList)

namespace Registry

/-- The registry with the elements of HTML. -/
def builtin : Registry where
  entries := Html.entries

/-! ## Looking up -/

/-- The entry that is in the table for a name. -/
def stored? (r : Registry) (name : String) : Option Entry :=
  r.entries.find? fun e => e.name == name

/-- The entry for a name. Where custom elements are accepted they have every attribute. -/
def lookup (r : Registry) (name : String) : Option Entry :=
  match r.stored? name with
  | some e => some e
  | none =>
    if r.customElements && isCustomName name then some (Entry.make name { custom := true })
    else none

/-- Whether a name is valid. -/
def has (r : Registry) (name : String) : Bool :=
  (r.lookup name).isSome

/-- Whether an attribute may stand on the element of an entry. -/
def allows (r : Registry) (e : Entry) (attr : String) : Bool :=
  e.custom || e.attributes.contains attr || Html.isCommonAttribute attr ||
    r.families.any fun f => f.has attr

/-- The names of all elements in the table, in their own order. -/
def sortedNames (r : Registry) : List String :=
  (r.entries.map Entry.name).mergeSort fun a b => decide (a ≤ b)

/-- The names of the families that are enabled, in their own order. -/
def sortedFamilies (r : Registry) : List String :=
  (r.families.map Family.name).mergeSort fun a b => decide (a ≤ b)

/-! ## Extending -/

/-- Refuse a change of a registry that is in use. -/
def checkOpen (r : Registry) (change : Change) : Except ChangeError Unit :=
  if r.frozen then .error (.frozen change) else .ok ()

/-- The registry with one more element, and its entry. -/
def register (r : Registry) (name : String) (settings : Settings) :
    Except ChangeError (Registry × Entry) := do
  r.checkOpen (.register name)
  if (r.stored? name).isSome then throw (.duplicate name)
  let e := Entry.make name settings
  return ({ r with entries := r.entries ++ [e] }, e)

/-- Register several elements with the same settings, one after the other. Those before the first
that is refused stay registered. -/
def define (r : Registry) (settings : Settings) :
    List String → Registry × Except ChangeError (List Entry)
  | [] => (r, .ok [])
  | name :: rest =>
    match r.register name settings with
    | .error e => (r, .error e)
    | .ok (r, entry) =>
      let (r, result) := r.define settings rest
      (r, result.map (entry :: ·))

/-- Accept every custom element, with any attributes. -/
def allowCustom (r : Registry) : Except ChangeError Registry := do
  r.checkOpen .allowCustom
  return { r with customElements := true }

/-- Enable one more family. -/
def addFamily (r : Registry) (family : Family) : Registry :=
  if r.families.contains family then r else { r with families := r.families ++ [family] }

/-- Enable families one after the other. -/
def addFamilies (r : Registry) : List String → Registry × Except ChangeError Unit
  | [] => (r, .ok ())
  | name :: rest =>
    match Family.ofName? name with
    | none => (r, .error (.unknownFamily name))
    | some family => (r.addFamily family).addFamilies rest

/-- Enable families by their names. Those before the first unknown name stay enabled. -/
def enable (r : Registry) (names : List String) : Registry × Except ChangeError Unit :=
  match r.checkOpen .enable with
  | .error e => (r, .error e)
  | .ok () => r.addFamilies names

/-- The registry closed for changes. -/
def freeze (r : Registry) : Registry :=
  { r with frozen := true }

end Registry

end Stencil.Schema
