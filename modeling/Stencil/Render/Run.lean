import Stencil.Render.Execute

/-!
# Deferred renders

A deferred render may run plans that meet other deferred renders, an iterator may draw on others,
and a function may be handed to a function. How deep this goes is not known beforehand, so it is
limited: what is nested deeper fails. Everything else recurses on terms and plans.
-/

namespace Stencil

namespace Render

section

variable (run : Runner)

/-- Carry out a step of a deferred render. -/
def runStep : Step → Render Unit
  | .push v => push v
  | .raw text => append text
  | .write v => writeValue run v
  | .renderTo v => renderTo run v
  | .contents => do
    let _ ← contents

/-- Carry out steps one after the other. -/
def runSteps : List Step → Render Unit
  | [] => pure ()
  | step :: rest => do
    runStep run step
    runSteps rest

/-- Run the children of a component. -/
def runBody (id : Nat) : Render Unit := do
  match (← get).bodies[id]? with
  | some body => execPlan run body.plan body.scope
  | none => throw .wrongValue

/-- Carry out a deferred render, where those that it meets are left to `run`. -/
def runDeferred : Deferred → Render Unit
  | .bound t context => within (execPlan run t.plan context)
  | .children id => runBody run id
  | .steps steps => runSteps run steps
  | .call f => do
    let _ ← call run f [.output] []

/-- The next item of a comprehension. While it is evaluated nothing can be taken from the
comprehension, and after a fault there is nothing left of it. -/
def resume (id : Nat) (item : Term) (clauses : List Clause) (env : Env) (loops : List Feed) :
    Render (Option Value) := do
  store id .running
  let next : Render (Option (Value × List Feed)) :=
    evalNext run clauses env (eval run item env) (some loops)
  let found ← tryCatch next fun e => do
    store id .finished
    throw e
  match found with
  | none =>
    store id .finished
    return none
  | some (v, loops) =>
    store id (.suspended item clauses env loops)
    return some v

/-- The next value of an iterator. -/
def next (id : Nat) : Render (Option Value) := do
  match (← get).cursors[id]? with
  | none => return none
  | some (.suspended item clauses env loops) => resume run id item clauses env loops
  | some .running => throw .wrongValue
  | some cursor => advance run id cursor

end

/-- A runner for what is nested at most so deep. -/
def performWithin : Nat → Runner
  | 0 => ⟨fun _ => throw .tooDeep, fun _ => throw .tooDeep, fun _ _ _ => throw .tooDeep⟩
  | n + 1 => {
      perform := fun action => runDeferred (performWithin n) action
      next := fun id => next (performWithin n) id
      apply := fun f given named => call (performWithin n) f given named }

/-- How deep renders may be nested. -/
def nestingLimit : Nat := 100000

/-- The runner that everything starts with. -/
def runner : Runner :=
  performWithin nestingLimit

/-- Render a template with a context to the buffer. -/
def template (t : Template) (context : Scope) : Render Unit :=
  runner.perform (.bound t context)

/-- The text of a template with a context. -/
def templateText (t : Template) (context : Scope) : Render String :=
  onFreshBuffer (template t context)

/-- The text that a plan writes. -/
def planText (plan : Plan) (scope : Scope) : Render String :=
  onFreshBuffer (execPlan runner plan scope)

/-! ## Markup -/

/-- What a value is as content of a response: what can render itself is rendered, markup is taken
as it is, everything else is escaped as text. -/
def toMarkup (v : Value) : Render Value :=
  match v, v.member? "render" with
  | .rendered m markup, _ => pure (.rendered m markup)
  | .raw _ m markup, _ => pure (.str m markup)
  | .kind k, _ => return .ofString (Text.escape k.shown)
  | _, some f => call runner f [] []
  | v, none => do return .ofString (Text.escape (← result v.text))

end Render

end Stencil
