import Stencil.Render.Feed
import Stencil.Value.Text

/-!
# Names

A name is looked up in the comprehensions around it, then in the scope of the template, then among
the built-in functions. A comprehension knows from the start which names it binds, so such a name
is not looked for elsewhere while it has no value.
-/

namespace Stencil

namespace Env

/-- The environment inside a comprehension. -/
def enter (env : Env) (frame : Frame) : Env :=
  { env with frames := frame :: env.frames }

/-- The number of the innermost frame. -/
def own (env : Env) : Nat :=
  match env.frames with
  | [] => 0
  | frame :: _ => frame.id

end Env

namespace Render

/-- The value of a name that a comprehension binds. The fault is for a name without a value: it
differs for the innermost comprehension and for those around it. -/
def lookupFrames (name : String) (missing : Fault) : List Frame → Render (Option Value)
  | [] => pure none
  | frame :: rest => do
    if frame.names.contains name then
      match Value.named? name ((← get).frames.getD frame.id []) with
      | some v => return some v
      | none => throw missing
    else lookupFrames name .unknownName rest

/-- The value of a name. -/
def lookup (env : Env) (name : String) : Render Value := do
  match ← lookupFrames name .unboundName env.frames with
  | some v => return v
  | none =>
    match Value.named? name env.context, Builtin.ofName? name with
    | some v, _ => return v
    | none, some f => return .builtin f
    | none, none => throw .unknownName

variable (run : Runner)

mutual

/-- Bind a target of a comprehension to a value. -/
def bindTarget (frame : Nat) : Target → Value → Render Unit
  | .name id, v => assign frame id v
  | .tuple parts, v => do bindTargets frame parts (← unpack run parts.length v)

/-- Bind each target to a value, as far as there are values. -/
def bindTargets (frame : Nat) : List Target → List Value → Render Unit
  | t :: rest, v :: values => do
    bindTarget frame t v
    bindTargets frame rest values
  | _, _ => pure ()

end

end Render

end Stencil
