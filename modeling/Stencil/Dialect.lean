/-!
# Dialects

A template is written in one of two dialects, which differ in looks only: `rsx` has tags and
expressions in braces, `maud` has element names followed by blocks and expressions in parentheses.
-/

namespace Stencil

/-- The two ways to write a template. -/
inductive Dialect where
  | rsx
  | maud
deriving DecidableEq, Repr

namespace Dialect

/-- The name that users give a dialect by. -/
def name : Dialect → String
  | .rsx => "rsx"
  | .maud => "maud"

/-- All dialects, in the order in which they are listed to users. -/
def all : List Dialect := [.rsx, .maud]

/-- The dialect of a name. -/
def ofName? (name : String) : Option Dialect :=
  all.find? fun d => d.name == name

/-- What is said about a name that is no dialect's. -/
def unknownMessage (name : String) : String :=
  let known := ", ".intercalate (all.map Dialect.name)
  s!"unknown template syntax '{name}', expected one of: {known}"

theorem ofName?_name (d : Dialect) : ofName? d.name = some d := by
  cases d <;> decide

end Dialect

end Stencil
