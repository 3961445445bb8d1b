import Stencil.Render.Evaluate

/-!
# Running plans

A plan is run against the buffer, operation by operation. Nested plans write to the same buffer.
Whatever a fault stops has written stays written.
-/

namespace Stencil

namespace Render

variable (run : Runner)

/-! ## Arguments and joined values -/

mutual

/-- The value of an argument of a component. -/
def argument : Content → Scope → Render Value
  | .literal text, _ => pure (.ofString text)
  | .dynamic e _, scope => evaluate run e scope
  | .toggle e, scope => do return .bool (← evaluate run e scope).truth
  | .joined parts, scope => do
    return .ofString (Generate.joinTexts (← argumentTexts parts scope))
  | .unknown, _ => throw (.unknownContent .unknown)

/-- The texts of the parts of an argument, each made before the next part is looked at. -/
def argumentTexts : List Content → Scope → Render (List String)
  | [], _ => pure []
  | part :: rest, scope => do
    let text ← result (← argument part scope).written
    return text :: (← argumentTexts rest scope)

end

/-- The arguments of a component, evaluated in order. A name that comes twice keeps its first place
and has its last value. -/
def arguments (scope : Scope) : List (String × Content) → Arguments → Render Arguments
  | [], done => pure done
  | (name, content) :: rest, done => do
    let v ← settle (← argument run content scope)
    arguments scope rest (done.insert name v)

/-- The texts of the parts of a joined value, each made before the next part is looked at. -/
def partTexts (scope : Scope) : List Part → Render (List String)
  | [] => pure []
  | .text s :: rest => do return s :: (← partTexts scope rest)
  | .value e :: rest => do
    let text ← result (← evaluate run e scope).written
    return text :: (← partTexts scope rest)

/-- The values of the names of a loop for an item. Several names take the item apart. -/
def boundValues (names : List String) (item : Value) : Render (List Value) :=
  match names with
  | [_] => do return [← settle item]
  | names => do
    let values ← drain run item
    if values.length = names.length then settleAll values
    else throw (.unpacking values.length names)

/-- The scope with the names of a loop bound to an item. -/
def bindNames (names : List String) (item : Value) (scope : Scope) : Render Scope := do
  return (names.zip (← boundValues run names item)).reverse ++ scope

/-! ## Operations -/

/-- Arguments with the children of a component, if it is given any, deferred. -/
def withChildren (children : Option Plan) (scope : Scope) (given : Arguments) : Render Arguments :=
  match children with
  | none => pure given
  | some plan => do
    let body ← settle (← newBody plan scope)
    -- a body counts for more than an argument of this name
    return given.insert "children" body

/-- Call a component and write its result. -/
def callComponent (reference : Expr) (contents : List (String × Content)) (children : Option Plan)
    (scope : Scope) : Render Unit := do
  let f ← evaluate run reference scope
  if !f.isCallable then throw (.notCallable reference.source f.kindName reference.place)
  let given ← withChildren children scope (← arguments run scope contents [])
  writeValue run (← call run f [] given)

mutual

/-- Run an operation. -/
def execOp : Op → Scope → Render Unit
  | .literal text, _ => append text
  | .escaped e inAttribute, scope => do
    let v ← evaluate run e scope
    if inAttribute then push v else writeValue run v
  | .joined parts, scope => do
    push (.ofString (Generate.joinTexts (← partTexts run scope parts)))
  | .raw e, scope => do append (← result (← evaluate run e scope).written)
  | .branch branches, scope => execBranches branches scope
  | .loop names source body, scope => do
    fold run
      (fun _ item => do execPlan body (← bindNames run names item scope))
      () (← evaluate run source scope)
  | .switch subject arms, scope => do execArms arms (← evaluate run subject scope) scope
  | .toggle e body, scope => do
    if (← evaluate run e scope).truth then execPlan body scope
  | .call reference contents children, scope =>
    callComponent run reference contents children scope

/-- Run operations one after the other. -/
def execPlan : List Op → Scope → Render Unit
  | [], _ => pure ()
  | op :: rest, scope => do
    execOp op scope
    execPlan rest scope

/-- Run the first plan whose condition is true or missing. -/
def execBranches : List (Option Expr × List Op) → Scope → Render Unit
  | [], _ => pure ()
  | (none, body) :: _, scope => execPlan body scope
  | (some condition, body) :: rest, scope => do
    if (← evaluate run condition scope).truth then execPlan body scope
    else execBranches rest scope

/-- Run the first plan whose pattern equals a value or is missing. -/
def execArms : List (Option Expr × List Op) → Value → Scope → Render Unit
  | [], _, _ => pure ()
  | (none, body) :: _, _, scope => execPlan body scope
  | (some pattern, body) :: rest, v, scope => do
    if ← result ((← evaluate run pattern scope).equality v) then execPlan body scope
    else execArms rest v scope

end

end Render

end Stencil
