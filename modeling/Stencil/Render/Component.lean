import Stencil.Render.World
import Stencil.Value.Member
import Stencil.Value.Text

/-!
# Ready-made components

Small components to try templates with. They take their arguments by name, or by place in the order
of their parameters.
-/

namespace Stencil

/-- The parameters of a component, with the values they have if they are not given. -/
structure Signature where
  parameters : List (String × Option Value)
  /-- Whether other named arguments are taken, too. -/
  takesMore : Bool

namespace Signature

/-- The values of parameters, given by place as far as that goes, else by name or by default. -/
def values (named : Arguments) :
    List (String × Option Value) → List Value → Except Fault (List Value)
  | [], [] => .ok []
  | [], _ :: _ => .error .wrongType
  | (name, _) :: rest, v :: given =>
    match Value.named? name named with
    | some _ => .error .wrongType
    | none => do return v :: (← values named rest given)
  | (name, default) :: rest, [] =>
    match Value.named? name named <|> default with
    | some v => do return v :: (← values named rest [])
    | none => .error .wrongType

/-- The values of the parameters and the other named arguments. -/
def bind (s : Signature) (given : List Value) (named : Arguments) :
    Except Fault (List Value × Arguments) := do
  let values ← values named s.parameters given
  let more := named.filter fun (name, _) => (s.parameters.lookup name).isNone
  if !s.takesMore && !more.isEmpty then throw .wrongType
  return (values, more)

end Signature

namespace Component

/-- The name that users give a component by. -/
def name : Component → String
  | .upper => "upper"
  | .nothing => "none"
  | .seven => "seven"
  | .drop => "drop"
  | .fail => "fail"
  | .text => "text"
  | .peek => "peek"
  | .badge => "badge"
  | .echo => "echo"
  | .wrap => "wrap"
  | .twice => "twice"
  | .box => "box"

/-- All ready-made components. -/
def all : List Component :=
  [.upper, .nothing, .seven, .drop, .fail, .text, .peek, .badge, .echo, .wrap, .twice, .box]

/-- The component of a name. -/
def ofName? (name : String) : Option Component :=
  all.find? fun c => c.name == name

/-- The parameters of a component. -/
def signature : Component → Signature
  | .upper => ⟨[("title", none)], false⟩
  | .nothing => ⟨[], true⟩
  | .seven => ⟨[], true⟩
  | .drop => ⟨[("children", some .none)], true⟩
  | .fail => ⟨[], true⟩
  | .text => ⟨[("children", none)], false⟩
  | .peek => ⟨[], true⟩
  | .badge => ⟨[("label", none), ("active", some (.bool false))], false⟩
  | .echo => ⟨[], true⟩
  | .wrap => ⟨[("children", some .none)], false⟩
  | .twice => ⟨[("children", none)], false⟩
  | .box => ⟨[("children", some .none)], true⟩

end Component

namespace Render

variable (run : Runner)

/-- The result of calling a member of a value. -/
def callMember (v : Value) (name : String) (given : List Value) : Render Value := do
  run.apply (← result (v.member name)) given []

/-- An argument as it is echoed: a deferred render by its output, everything else as it is
shown. -/
def echoed : String × Value → Render String
  | (name, v@(.lazy ..)) => do
    let output ← result (← callMember run v "render" []).text
    return s!"{name}=[{output}]"
  | (name, v) => do
    let shown ← result v.shown
    return s!"{name}={shown}"

/-- Write arguments into a tag. -/
def tagSteps (arguments : Arguments) : List Step :=
  arguments.flatMap fun (name, v) => [.push (.ofString s!" {name}="), .push v]

end Render

/-- The result of a component. -/
def Component.call (run : Runner) (c : Component) (given : List Value) (named : Arguments) :
    Render Value := do
  let (values, more) ← Render.result (c.signature.bind given named)
  match c, values with
  | .upper, [title] => Render.callMember run title "upper" []
  | .nothing, _ => return .none
  | .seven, _ => return .ofInt 7
  | .drop, _ => return .raw .fresh .fresh "<d>"
  | .fail, _ => throw .wrongValue
  | .text, [children] => Render.callMember run children "render" []
  | .peek, _ => return .lazy .fresh (.steps [.contents])
  | .badge, [label, active] =>
    if active.truth then
      let text ← Render.result label.text
      return .raw .fresh .fresh s!"<span class=\"badge\">{text}</span>"
    return label
  | .echo, _ => return .ofString (";".intercalate (← more.mapM (Render.echoed run)))
  | .wrap, [children] =>
    return .lazy .fresh (.steps [.raw "<w>", .write children, .raw "</w>"])
  | .twice, [children] =>
    return .lazy .fresh (.steps [.renderTo children, .renderTo children])
  | .box, [children] =>
    return .lazy .fresh (.steps
      (.raw "<box" :: Render.tagSteps more ++ [.raw ">", .write children, .raw "</box>"]))
  | _, _ => throw .wrongType

end Stencil
