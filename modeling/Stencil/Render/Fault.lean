import Stencil.Template

/-!
# Faults

A render stops at the first fault. Faults of expressions are told apart by their kind alone; those
of the engine carry what their messages need.
-/

namespace Stencil

/-- Why a render, or the evaluation of an expression, fails. -/
inductive Fault where
  /-- A name that is not in scope. -/
  | unknownName
  /-- A name of a comprehension that has no value yet. -/
  | unboundName
  /-- An operation on values of the wrong kind. -/
  | wrongType
  /-- A value of the right kind that is not acceptable. -/
  | wrongValue
  /-- A member that a value does not have. -/
  | unknownMember
  /-- A key that a dict does not have. -/
  | unknownKey
  /-- A place beyond the ends of a sequence. -/
  | outOfRange
  | divisionByZero
  /-- A number beyond all floats, or beyond what counts things. -/
  | overflow
  /-- A value that is too great for any memory. -/
  | outOfMemory
  /-- A loop with several names got an item with another number of values. -/
  | unpacking (count : Nat) (names : List String)
  /-- An argument of a component is no value that an attribute can have. -/
  | unknownContent (content : Content)
  /-- Raw markup was asked for without saying that it is dangerous. -/
  | rawDirect
  /-- What a component's name stands for cannot be called. -/
  | notCallable (source kind : String) (place : Option Location)
  /-- The text of a buffer was asked for while a render into it is in progress. -/
  | bufferBusy
  /-- A buffer cannot grow. -/
  | bufferFull
  /-- Renders are nested too deep. -/
  | tooDeep
  /-- A template was asked for in a dialect that there is none of. -/
  | unknownDialect (name : String)
  /-- A template that was made during a render is refused. -/
  | refused (error : CompileError)
  /-- The content type of a response has a line break. -/
  | brokenHeader
  /-- A response has characters that its content type cannot hold. -/
  | unencodable

namespace Fault

/-- What the engine says about a fault; nothing about those of expressions. -/
def description? : Fault → Option String
  | .unpacking count names =>
    let list := ", ".intercalate names
    some s!"cannot unpack {count} value(s) into loop variables: {list}"
  | .unknownContent content => some s!"unknown type of an attribute value: {content.show}"
  | .rawDirect => some "Raw markup can only be created with Raw.dangerously_create()"
  | .notCallable source kind _ => some s!"component '{source}' is not callable, found {kind}"
  | .bufferBusy =>
    some "contents of the buffer requested while a render into it is still in progress"
  | .bufferFull => some "output buffer cannot grow"
  | .unknownDialect name => some (Dialect.unknownMessage name)
  | _ => none

/-- Where in a template the fault is. -/
def place? : Fault → Option Location
  | .notCallable _ _ place => place
  | _ => none

end Fault

end Stencil
