import Stencil.Session

/-!
# Uses of a buffer

What is done with a buffer, one use after the other. A render into it may also be begun and ended by
hand, with any uses in between. Whatever else happens in the world between two uses is left open, so
every use comes with the world it finds.
-/

namespace Stencil

/-- A use of a buffer. -/
inductive Use where
  /-- Append the text of a value, escaped. -/
  | push (v : Value)
  /-- Append a text as it is. -/
  | raw (text : String)
  /-- Append a value as element content. -/
  | write (v : Value)
  /-- Let a value render itself; a template is given a context. -/
  | renderTo (v : Value) (context : Scope)
  | execute (plan : Plan) (scope : Scope)
  /-- Ask for the text. -/
  | contents
  /-- Begin a render by hand. -/
  | enter
  /-- End a render that was begun by hand. -/
  | leave

namespace Use

/-- What a use does; the text, if that was asked for. -/
def action : Use → Render (Option String)
  | .push v => do
    Render.push v
    return none
  | .raw text => do
    Render.append text
    return none
  | .write v => do
    Render.writeValue Render.runner v
    return none
  | .renderTo v context => do
    Session.renderTo v context
    return none
  | .execute plan scope => do
    Render.execPlan Render.runner plan scope
    return none
  | .contents => do return some (← Render.contents)
  | .enter => do
    Render.change Buffer.enter
    return none
  | .leave => do
    Render.leave
    return none

/-- How many renders are in progress after a use. -/
def progress (n : Nat) : Use → Nat
  | .enter => n + 1
  | .leave => n - 1
  | _ => n

/-- How many renders are in progress after uses, one after the other. -/
def progressAll (n : Nat) (uses : List (Use × World)) : Nat :=
  uses.foldl (fun n (u, _) => u.progress n) n

end Use

namespace Buffer

/-- The outcome of a use and the buffer after it. -/
def perform (b : Buffer) (u : Use) (w : World) : Except Fault (Option String) × Buffer :=
  let (outcome, w) := u.action { w with buffer := b }
  (outcome, w.buffer)

/-- The buffer after uses, one after the other, in the worlds that they find. -/
def performAll (b : Buffer) (uses : List (Use × World)) : Buffer :=
  uses.foldl (fun b (u, w) => (b.perform u w).2) b

@[simp] theorem performAll_nil (b : Buffer) : b.performAll [] = b := rfl

@[simp] theorem performAll_cons (b : Buffer) (u : Use) (w : World) (rest : List (Use × World)) :
    b.performAll ((u, w) :: rest) = (b.perform u w).2.performAll rest := rfl

end Buffer

end Stencil
