import Stencil.Text.Search

/-!
# Entries and families

What is known of an element: its name, whether it is void, and which attributes are its own. And
what is known of attributes that are no element's own: the families that front-end libraries bring,
each of them allowed on every element once it is enabled.
-/

namespace Stencil.Schema

/-- The description of an element. -/
structure Entry where
  name : String
  /-- A void element has no content and no closing tag. -/
  isVoid : Bool
  /-- The attributes of this element, without repetition. -/
  attributes : List String
  /-- Whether every attribute is allowed. -/
  custom : Bool
deriving DecidableEq, Repr, Inhabited

/-- Settings that several elements can share. -/
structure Settings where
  isVoid : Bool := false
  attributes : List String := []
  custom : Bool := false

namespace Entry

/-- The entry for a name. -/
def make (name : String) (settings : Settings) : Entry :=
  ⟨name, settings.isVoid, settings.attributes.eraseDups, settings.custom⟩

/-- The attributes in the order of their names. -/
def sortedAttributes (e : Entry) : List String :=
  e.attributes.mergeSort fun a b => decide (a ≤ b)

end Entry

/-! ## Families of attributes -/

/-- The families that can be enabled. -/
inductive Family where
  | htmx
  | alpine
  | hyperscript
deriving DecidableEq, Repr

namespace Family

/-- The name that users give a family by. -/
def name : Family → String
  | .htmx => "htmx"
  | .alpine => "alpine"
  | .hyperscript => "hyperscript"

/-- All families, in the order in which they are listed to users. -/
def all : List Family := [.htmx, .alpine, .hyperscript]

/-- The family of a name. -/
def ofName? (name : String) : Option Family :=
  all.find? fun f => f.name == name

/-- Whether an attribute belongs to a family: by its beginning, or by its whole name. -/
def has : Family → String → Bool
  | .htmx, attr => Text.startsWith "hx-" attr || Text.startsWith "data-hx-" attr
  | .alpine, attr =>
    Text.startsWith "x-" attr || Text.startsWith "@" attr || Text.startsWith ":" attr
  | .hyperscript, attr => attr == "_"

theorem ofName?_name (f : Family) : ofName? f.name = some f := by
  cases f <;> decide

end Family

end Stencil.Schema
