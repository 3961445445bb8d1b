import Stencil.Render.Fault
import Stencil.Value.Record

/-!
# Members

What can be reached from a value by a point and a name.
-/

namespace Stencil

/-- The members of strings. -/
def stringMethod? : String → Option Method
  | "upper" => some .upper
  | "lower" => some .lower
  | "strip" => some .strip
  | "join" => some .join
  | "replace" => some .replace
  | "split" => some .split
  | "startswith" => some .startsWith
  | "endswith" => some .endsWith
  | _ => none

/-- The members of dicts. -/
def dictMethod? : String → Option Method
  | "get" => some .get
  | "items" => some .items
  | "keys" => some .keys
  | "values" => some .values
  | _ => none

/-- The members of what can render itself. -/
def renderMethod? : String → Option Method
  | "render" => some .render
  | "render_to" => some .renderTo
  | _ => none

namespace Value

/-- Options that a template is compiled with, as a dict. -/
def options (m : Mark) (name : String) (verbose : Bool) : Value :=
  .dict m [(.str .named "name", .str m name), (.str .named "verbose", .bool verbose)]

/-- The options of a template that is given none. -/
def defaultOptions : Value :=
  options .stock Template.anonymous false

/-- The member of a class. What its values can do is to be had without a value, too, which then has
to be the first argument. -/
def kindMember? (k : Kind) (name : String) : Option Value :=
  let unbound (m : Method) : Option Value := some (.method .stock (.kind k) m)
  match k, name with
  | .raw, "dangerously_create" => some (.method .fresh (.kind k) .create)
  | .raw, "render_to" => unbound .renderTo
  | .lazy, "render" => unbound .render
  | .lazy, "render_to" => unbound .renderTo
  | .template, "render" => unbound .render
  | .template, "render_to" => unbound .renderTo
  | .template, "bind" => unbound .bind
  | .template, "config_default" => some defaultOptions
  | .template, name =>
    if ["config", "source", "syntax", "registry", "tree", "plan"].contains name then some .none
    else Option.none
  | _, _ => Option.none

/-- The member of a value, if it has one of this name. A text or number that belongs to a value has
its mark. -/
def member? (v : Value) (name : String) : Option Value :=
  let method (m : Option Method) : Option Value := m.map (.method .fresh v ·)
  match v with
  | .object _ members => named? name members
  | .record _ _ _ fields more => named? name fields <|> named? name more
  | .dict .. => method (dictMethod? name)
  | .lazy _ (.call f) => if name = "func" then some f else method (renderMethod? name)
  | .lazy .. => method (renderMethod? name)
  | .template m t =>
    match name with
    | "source" => some (.str m t.source)
    | "syntax" => some (.str m t.dialect.name)
    | "tree" => some (.ofList (Node.toValues t.tree))
    | "plan" => some (.ofList (Op.toValues t.plan))
    | "config" => some (options m t.name t.verbose)
    | "config_default" => some defaultOptions
    | "bind" => method (some .bind)
    | _ => method (renderMethod? name)
  | .raw _ textMark markup =>
    match name with
    | "text" => some (.str textMark markup)
    | "render_to" => method (some .renderTo)
    | "dangerously_create" => some (.method .fresh (.kind .raw) .create)
    | _ => Option.none
  | .kind k => kindMember? k name
  | .range m start stop step =>
    match name with
    | "start" => some (.int m start)
    | "stop" => some (.int m stop)
    | "step" => some (.int m step)
    | _ => Option.none
  | .builtin .str => (stringMethod? name).map (.method .stock v ·)
  | v => v.string?.bind fun _ => method (stringMethod? name)

/-- The member of a value. -/
def member (v : Value) (name : String) : Except Fault Value :=
  match v.member? name with
  | some m => .ok m
  | Option.none => .error .unknownMember

end Value

end Stencil
