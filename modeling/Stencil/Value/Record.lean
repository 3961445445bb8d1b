import Stencil.Value.Basic

/-!
# Parts of templates as values

An expression can look into a template: at the nodes of its tree and at the operations of its plan.
Both are records, with the texts and the expressions that they consist of under the names of their
fields. Where a part stands in the source is a member of it, but does not count when records are
compared.
-/

namespace Stencil

namespace Value

/-- A value that may be missing. -/
def ofOption : Option Value → Value
  | some v => v
  | Option.none => .none

/-- A line and a column. -/
def ofLocation (l : Location) : Value :=
  .ofTuple [.ofInt l.line, .ofInt l.column]

end Value

namespace Record

/-- A part of a tree, with its place in the source and other members. -/
def part (label : String) (fields : List (String × Value)) (place : Option Location)
    (more : List (String × Value)) : Value :=
  let names := .ofTuple (fields.map fun field => .str .named field.1)
  .record .fresh label false fields
    (("fields", names) :: ("pos", .ofOption (place.map .ofLocation)) :: more)

/-- An operation of a plan. -/
def operation (label : String) (fields : List (String × Value)) : Value :=
  .record .fresh label true fields []

/-- An operation that runs other plans. -/
def invocation (label : String) (fields : List (String × Value)) : Value :=
  operation "Invoke" [("target", operation label fields)]

end Record

open Record

/-- An expression as a value. -/
def Expr.toValue (e : Expr) : Value :=
  part "Expr" [("source", .ofString e.source)] e.place []

/-- A condition as a value: none is `None`. -/
def conditionValue (condition : Option Expr) : Value :=
  .ofOption (condition.map Expr.toValue)

/-- Names as a value. -/
def namesValue (names : List String) : Value :=
  .ofList (names.map .ofString)

/-! ## Trees -/

mutual

/-- A content as a value. -/
def Content.toValue : Content → Value
  | .literal text => part "Literal" [("value", .ofString text)] none []
  | .dynamic e raw => part "Dynamic" [("expr", e.toValue), ("raw", .bool raw)] none []
  | .toggle e => part "BooleanToggle" [("expr", e.toValue)] none []
  | .joined parts => part "Concat" [("parts", .ofList (Content.toValues parts))] none []
  | .unknown => part "Struct" [] none []

/-- Contents as values. -/
def Content.toValues : List Content → List Value
  | [] => []
  | c :: rest => c.toValue :: Content.toValues rest

end

/-- An attribute as a value. -/
def Attribute.toValue (a : Attribute) : Value :=
  part "Attribute" [("name", .ofString a.name), ("value", a.value.toValue)] a.place []

mutual

/-- A node as a value. -/
def Node.toValue : Node → Value
  | .element name attributes children void place =>
    part "Element"
      [("name", .ofString name), ("attributes", .ofList (attributes.map Attribute.toValue)),
        ("children", .ofList (Node.toValues children))]
      place [("void", .bool void)]
  | .text content place =>
    part "Text" [("content", content.toValue)] place [("literal", .bool content.literal?.isSome)]
  | .doctype place => part "Doctype" [] place []
  | .component reference arguments children place =>
    part "ComponentCall"
      [("reference", reference.toValue),
        ("arguments", .ofList (arguments.map Attribute.toValue)),
        ("children", .ofList (Node.toValues children))]
      place []
  | .choice branches place =>
    part "If" [("branches", .ofList (Node.toGuarded branches))] place []
  | .each names source body place =>
    part "For"
      [("binding", namesValue names), ("iterable", source.toValue),
        ("body", .ofList (Node.toValues body))]
      place []
  | .cases subject arms place =>
    part "Match" [("scrutinee", subject.toValue), ("arms", .ofList (Node.toGuarded arms))] place []
  | .unknown => part "Node" [] none []

/-- Nodes as values. -/
def Node.toValues : List Node → List Value
  | [] => []
  | n :: rest => n.toValue :: Node.toValues rest

/-- Guarded bodies as values. -/
def Node.toGuarded : List (Option Expr × List Node) → List Value
  | [] => []
  | (condition, body) :: rest =>
    .ofTuple [conditionValue condition, .ofList (Node.toValues body)] :: Node.toGuarded rest

end

/-! ## Plans -/

/-- A part of a joined value as a value. -/
def Part.toValue : Part → Value
  | .text s => .ofString s
  | .value e => e.toValue

/-- An argument of a component as a value. -/
def argumentValue (argument : String × Content) : Value :=
  .ofTuple [.ofString argument.1, argument.2.toValue]

mutual

/-- An operation as a value. -/
def Op.toValue : Op → Value
  | .literal text => operation "WriteLiteral" [("text", .ofString text)]
  | .escaped e inAttribute =>
    operation "WriteEscaped" [("expr", e.toValue), ("attribute", .bool inAttribute)]
  | .joined parts => operation "WriteJoined" [("parts", .ofList (parts.map Part.toValue))]
  | .raw e => operation "WriteRaw" [("expr", e.toValue)]
  | .branch branches => invocation "Branch" [("branches", .ofList (Op.toGuarded branches))]
  | .loop names source body =>
    invocation "Loop"
      [("binding", namesValue names), ("iterable", source.toValue),
        ("plan", .ofList (Op.toValues body))]
  | .switch subject arms =>
    invocation "Switch"
      [("scrutinee", subject.toValue), ("arms", .ofList (Op.toGuarded arms))]
  | .toggle e body =>
    invocation "Toggle" [("expr", e.toValue), ("plan", .ofList (Op.toValues body))]
  | .call reference arguments none =>
    invocation "Call"
      [("reference", reference.toValue), ("arguments", .ofList (arguments.map argumentValue)),
        ("plan", .none)]
  | .call reference arguments (some body) =>
    invocation "Call"
      [("reference", reference.toValue), ("arguments", .ofList (arguments.map argumentValue)),
        ("plan", .ofList (Op.toValues body))]

/-- Operations as values. -/
def Op.toValues : List Op → List Value
  | [] => []
  | op :: rest => op.toValue :: Op.toValues rest

/-- Guarded plans as values. -/
def Op.toGuarded : List (Option Expr × List Op) → List Value
  | [] => []
  | (condition, body) :: rest =>
    .ofTuple [conditionValue condition, .ofList (Op.toValues body)] :: Op.toGuarded rest

end

end Stencil
