import Stencil.Render.Builtin
import Stencil.Render.Component
import Stencil.Render.Method

/-!
# Calls

What can be called: components, templates, built-in functions, methods and classes. A template
that is called gives a deferred render of itself, which sees nothing but its arguments. The class of
templates compiles a source, and the class of deferred renders defers a function.
-/

namespace Stencil

namespace Render

variable (run : Runner)

/-! ## Renders by themselves -/

/-- Let markup, a deferred render or a template write itself to the buffer. -/
def writeSelf (v : Value) (context : Arguments) : Render Unit :=
  match v, context with
  | .raw _ _ markup, [] => append markup
  | .lazy _ action, [] => within (run.perform action)
  | .template _ t, context => run.perform (.bound t context)
  | _, _ => throw .wrongType

/-- The text of a complete render of a deferred render or a template. -/
def renderSelf (v : Value) (context : Arguments) : Render Value := do
  return .rendered .fresh (← onFreshBuffer (writeSelf run v context))

/-- The text of a complete render of anything that can render itself. -/
def renderAny (v : Value) (context : Arguments) : Render Value := do
  let f ← result (v.member "render_to")
  return .rendered .fresh (← onFreshBuffer (do let _ ← run.apply f [.output] context))

/-- A deferred render of anything that can render itself. -/
def bindAny (v : Value) (context : Arguments) : Value :=
  match v with
  | .template _ t => .lazy .fresh (.bound t context)
  | v => .lazy .fresh (.steps [.renderTo v])

/-! ## Methods and classes -/

/-- The result of a method. -/
def callMethod (m : Method) (subject : Value) (given : List Value) (named : Arguments) :
    Render Value :=
  match m, subject, given, named with
  | .render, .kind .template, [v], context => renderAny run v context
  | .render, .kind .lazy, [v], [] => renderAny run v []
  | .render, .kind .lazy, [], [("self", v)] => renderAny run v []
  | .bind, .kind .template, [v], context => return bindAny v context
  | .renderTo, .kind _, [_, _], _ => throw .unknownMember
  | .renderTo, .kind _, _, _ => throw .wrongType
  | .render, subject, [], context => renderSelf run subject context
  | .renderTo, subject, [.output], context => do
    writeSelf run subject context
    return .none
  | .renderTo, .raw .., [], [("buffer", _)] => throw .unknownMember
  | .renderTo, .lazy .., [], [("buffer", _)] => throw .unknownMember
  | .renderTo, _, [_], _ => throw .unknownMember
  | .bind, .template _ t, [], context => return .lazy .fresh (.bound t context)
  | .create, _, [v], [] => createRaw v
  | .create, _, [], [("text", v)] => createRaw v
  | .render, _, _, _ => throw .wrongType
  | .renderTo, _, _, _ => throw .wrongType
  | .bind, _, _, _ => throw .wrongType
  | .create, _, _, _ => throw .wrongType
  | m, subject, given, named => m.onContainer run subject given named
where
  /-- Markup with the text of a value. -/
  createRaw (v : Value) : Render Value := do
    match ← result v.toText with
    | .str m s => return .raw .fresh m s
    | _ => throw .wrongType

/-- The dialect that a value names. -/
def dialectOf (v : Value) : Except Fault Dialect :=
  match v.string? with
  | some name =>
    match Dialect.ofName? name with
    | some d => .ok d
    | none => .error (.unknownDialect name)
  | none =>
    if v.isKey then do throw (.unknownDialect (← v.text)) else .error .wrongType

/-- A new template, checked against the registry of the world. The world's registry is in use from
then on. -/
def compiled (d : Dialect) (source name : String) (verbose : Bool) (registry : Value) :
    Render Value := do
  let w ← get
  match registry, Template.compile w.registry d source name verbose with
  | .none, (r, .ok t) =>
    set { w with registry := r }
    return .template .fresh t
  | .none, (r, .error e) =>
    set { w with registry := r }
    throw (.refused e)
  -- any other value is asked for what only a registry has, once the source is read
  | _, (_, .error (.source e)) => throw (.refused (.source e))
  | _, _ => throw .unknownMember

/-- A new template of a source, with options. -/
def newTemplate (source dialect registry : Value) (options : Arguments) : Render Value := do
  let d ← result (dialectOf dialect)
  match source.string? with
  | none => throw .wrongType
  | some text =>
    let name ←
      match Value.named? "name" options with
      | none => pure Template.anonymous
      | some v => result v.text
    compiled d text name (((Value.named? "verbose" options).map Value.truth).getD false) registry

/-- The result of calling the class of templates. -/
def callTemplate (given : List Value) (named : Arguments) : Render Value := do
  let parameters : List (String × Option Value) :=
    [("source", none), ("syntax", some (.ofString Dialect.rsx.name)), ("registry", some .none)]
  let (values, options) ← result (Signature.bind ⟨parameters, true⟩ given named)
  match values with
  | [source, dialect, registry] => newTemplate source dialect registry options
  | _ => throw .wrongType

/-- The result of calling a class. Raw markup cannot be had in this way. -/
def callKind (k : Kind) (given : List Value) (named : Arguments) : Render Value :=
  match k, given, named with
  | .raw, [_], [] => throw .rawDirect
  | .raw, [_, _], [] => throw .rawDirect
  | .raw, [], [("text", _)] => throw .rawDirect
  | .raw, [], [("text", _), ("_key", _)] => throw .rawDirect
  | .raw, [], [("_key", _), ("text", _)] => throw .rawDirect
  | .lazy, [f], [] => return .lazy .fresh (.call f)
  | .lazy, [], [("func", f)] => return .lazy .fresh (.call f)
  | .template, given, named => callTemplate given named
  | _, _, _ => throw .wrongType

/-- The result of a call. -/
def call (f : Value) (given : List Value) (named : Arguments) : Render Value :=
  match f, given, named with
  | .component c, given, named => c.call run given named
  | .template _ t, [], named => return .lazy .fresh (.bound t named)
  | .builtin b, given, named => do b.call run (← result (b.inPlace given named))
  | .method _ subject m, given, named => callMethod run m subject given named
  | .kind k, given, named => callKind k given named
  | _, _, _ => throw .wrongType

/-! ## Writing values -/

/-- Append the text of a value, escaped. -/
def push (v : Value) : Render Unit := do
  append (← result v.markup)

/-- Let a value write itself to the buffer. -/
def renderTo (v : Value) : Render Unit := do
  let f ← result (v.member "render_to")
  let _ ← call run f [.output] []

/-- Append a value as element content: what can render itself does so, everything else is written
as text. -/
def writeValue (v : Value) : Render Unit :=
  match v, v.member? "render_to" with
  | .kind _, _ => push v
  | _, none => push v
  | _, some .none => push v
  | _, some f => do
    let _ ← call run f [.output] []

end Render

end Stencil
