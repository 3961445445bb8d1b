import Stencil.Render.Run
import Stencil.Schema.Request

/-!
# Sessions

A session is what lasts between the uses of the engine: registries, compiled templates, values that
were stored under names, buffers, and what is left of iterators. Templates that are compiled with
the shared registry and without options are kept and given out again for the same source.
-/

namespace Stencil

open Schema

/-- Options for the compilation of a template. -/
structure Options where
  name : Option String := none
  /-- Whether the compilation is reported. -/
  verbose : Option Bool := none
deriving DecidableEq, Repr, Inhabited

/-- Whether no option is given. -/
def Options.isEmpty (o : Options) : Bool :=
  o.name.isNone && o.verbose.isNone

/-- The state of the engine. -/
structure Session where
  /-- The store of the values, and the shared registry. -/
  world : World := {}
  /-- Other registries, by name. -/
  registries : List (String × Registry) := []
  /-- Values, by name. -/
  objects : List (String × Value) := []
  /-- Buffers, by name. -/
  buffers : List (String × Buffer) := []
  /-- Templates to be given out again, with their marks. -/
  cache : List ((Dialect × String) × (Mark × Template)) := []
  /-- Whether every compilation is reported. -/
  debug : Bool := false
  /-- Whether templates are given out again. -/
  caching : Bool := true

/-- Put an entry in front of those of the same key. -/
def putEntry {κ α : Type} [BEq κ] (key : κ) (x : α) (entries : List (κ × α)) : List (κ × α) :=
  (key, x) :: entries.filter fun entry => entry.1 != key

/-- A template with its mark, and what was printed about it. -/
structure Compiled where
  mark : Mark
  template : Template
  printed : String

/-- A compiled template as a value. -/
def Compiled.value (c : Compiled) : Value :=
  .template c.mark c.template

namespace Session

/-- The shared registry. -/
def registry (s : Session) : Registry :=
  s.world.registry

/-! ## Registries -/

/-- The registry of a name; the shared one if no name is given. -/
def registryNamed? (s : Session) : Option String → Option Registry
  | none => some s.registry
  | some name => s.registries.lookup name

/-- The session with a registry in its place. -/
def setRegistry (s : Session) (r : Registry) : Option String → Session
  | none => { s with world := { s.world with registry := r } }
  | some name => { s with registries := putEntry name r s.registries }

/-! ## Templates -/

/-- Compile a template against a registry, which is in use from then on. -/
def compileWith (s : Session) (r : Registry) (registryName : Option String) (dialect : Dialect)
    (source : String) (o : Options) : Session × Except CompileError Compiled :=
  let name := o.name.getD Template.anonymous
  let (r, result) := Template.compile r dialect source name (o.verbose.getD false)
  let s := s.setRegistry r registryName
  match result with
  | .error e => (s, .error e)
  | .ok t =>
    let printed := if t.verbose || s.debug then t.summary else ""
    let id := s.world.nextId
    ({ s with world := { s.world with nextId := id + 1 } }, .ok ⟨.made id, t, printed⟩)

/-- Compile a template against the shared registry, or give out the one that was compiled from this
source before. Nothing is kept of a compilation with options or one that failed. -/
def obtain (s : Session) (dialect : Dialect) (source : String) (o : Options) :
    Session × Except CompileError Compiled :=
  if s.caching && o.isEmpty then
    match s.cache.lookup (dialect, source) with
    | some (mark, t) => (s, .ok ⟨mark, t, ""⟩)
    | none =>
      match s.compileWith s.registry none dialect source o with
      | (s, .error e) => (s, .error e)
      | (s, .ok c) =>
        ({ s with cache := ((dialect, source), (c.mark, c.template)) :: s.cache }, .ok c)
  else s.compileWith s.registry none dialect source o

/-! ## Values -/

/-- The value that is stored under a name. -/
def object? (s : Session) (name : String) : Option Value :=
  s.objects.lookup name

/-- Store a value under a name. -/
def store (s : Session) (name : String) (v : Value) : Session :=
  { s with objects := putEntry name v s.objects }

/-- Whether two names stand for one and the same value. -/
def same (s : Session) (a b : String) : Option Bool := do
  return (← s.object? a).identical (← s.object? b)

/-! ## Renders -/

/-- Run an action that leaves the buffers alone. -/
def run {α : Type} (s : Session) (action : Render α) : Session × Except Fault α :=
  let (result, w) := action s.world
  ({ s with world := w }, result)

/-- Run an action on a buffer. What it wrote stays there if it fails. -/
def onBuffer {α : Type} (s : Session) (name : String) (action : Render α) :
    Option (Session × Except Fault α × Buffer) := do
  let buffer ← s.buffers.lookup name
  let (result, w) := action { s.world with buffer := buffer }
  let world := { w with buffer := s.world.buffer }
  return ({ s with world := world, buffers := putEntry name w.buffer s.buffers }, result, w.buffer)

/-- The text of a value that can render itself; a template is given a context. -/
def renderValue (v : Value) (context : Scope) : Render Value := do
  let f ← Render.result (v.member "render")
  match v with
  | .template .. => Render.call Render.runner f [] context
  | _ => Render.call Render.runner f [] []

/-- Render a value to the buffer; a template is given a context. -/
def renderTo (v : Value) (context : Scope) : Render Unit :=
  match v with
  | .template _ t => Render.template t context
  | v => Render.renderTo Render.runner v

end Session

/-! ## Operations -/

/-- An operation on what lasts between the uses of the engine. -/
inductive Operation where
  /-- A request to the shared registry. -/
  | request (q : Schema.Request)
  /-- Compile a template against the shared registry, and do not keep it. -/
  | compile (dialect : Dialect) (source : String) (o : Options)
  /-- Give out a template for a source, compiled now or before. -/
  | obtain (dialect : Dialect) (source : String) (o : Options)
  /-- Whether templates are given out again from now on. -/
  | setCaching (on : Bool)
  /-- Whether every compilation is reported from now on. -/
  | setDebug (on : Bool)

namespace Session

/-- The session after an operation, whether it failed or not. -/
def after (s : Session) : Operation → Session
  | .request q => s.setRegistry (s.registry.serve q).1 none
  | .compile dialect source o => (s.compileWith s.registry none dialect source o).1
  | .obtain dialect source o => (s.obtain dialect source o).1
  | .setCaching on => { s with caching := on }
  | .setDebug on => { s with debug := on }

/-- The session after operations, one after the other. -/
def afterAll (s : Session) (operations : List Operation) : Session :=
  operations.foldl after s

@[simp] theorem afterAll_nil (s : Session) : s.afterAll [] = s := rfl

@[simp] theorem afterAll_cons (s : Session) (op : Operation) (rest : List Operation) :
    s.afterAll (op :: rest) = (s.after op).afterAll rest := rfl

end Session

end Stencil
