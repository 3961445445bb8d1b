import Stencil.Plan.Basic
import Stencil.Tree.Show

/-!
# The text of a plan

Operations are shown as constructor applications. Those that run other plans stand in `Invoke`.
-/

namespace Stencil

/-- A part as it is shown. -/
def Part.show : Part → String
  | .text s => Text.shown s
  | .value expr => expr.show

/-- An argument as it is shown. -/
def showArgument (argument : String × Content) : String :=
  showTuple [Text.shown argument.1, argument.2.show]

/-- An operation that runs other plans, as it is shown. -/
def showInvoke (kind : String) (items : List String) : String :=
  "Invoke" ++ showTuple [kind ++ showTuple items]

mutual

/-- An operation as it is shown. -/
def Op.show : Op → String
  | .literal text => "WriteLiteral" ++ showTuple [Text.shown text]
  | .escaped expr inAttribute => "WriteEscaped" ++ showTuple [expr.show, showBool inAttribute]
  | .joined parts => "WriteJoined" ++ showTuple [showList (parts.map Part.show)]
  | .raw expr => "WriteRaw" ++ showTuple [expr.show]
  | .branch branches => showInvoke "Branch" [showList (showGuarded branches)]
  | .loop names source body =>
    showInvoke "Loop" [showList (names.map Text.shown), source.show, showList (showOps body)]
  | .switch subject arms => showInvoke "Switch" [subject.show, showList (showGuarded arms)]
  | .toggle expr body => showInvoke "Toggle" [expr.show, showList (showOps body)]
  | .call reference arguments none =>
    showInvoke "Call" [reference.show, showList (arguments.map showArgument), "None"]
  | .call reference arguments (some body) =>
    showInvoke "Call"
      [reference.show, showList (arguments.map showArgument), showList (showOps body)]

/-- Operations as they are shown. -/
def showOps : List Op → List String
  | [] => []
  | op :: rest => op.show :: showOps rest

/-- Guarded plans as they are shown. -/
def showGuarded : List (Option Expr × List Op) → List String
  | [] => []
  | (condition, body) :: rest =>
    showTuple [showCondition condition, showList (showOps body)] :: showGuarded rest

end

/-- A plan as it is shown. -/
def showPlan (plan : Plan) : String :=
  showList (showOps plan)

end Stencil
