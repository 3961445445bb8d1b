import Stencil.Render.Fault

/-!
# Output buffers

A buffer holds the text that was appended so far and knows how many renders are writing to it. The
text can be asked for only while there is none. A buffer may have room for a limited number of
appends, until its text is asked for.
-/

namespace Stencil

/-- An output buffer. -/
structure Buffer where
  /-- Everything that was appended, in order. -/
  text : String := ""
  /-- The number of renders in progress. -/
  depth : Nat := 0
  /-- How many more appends there is room for, if that is limited. -/
  room : Option Nat := none
  /-- Whether the text is lost. -/
  broken : Bool := false
deriving DecidableEq, Repr, Inhabited

namespace Buffer

/-- Append a text as it is. Appending nothing needs no room. -/
def append (b : Buffer) (text : String) : Except Fault Buffer :=
  if text.isEmpty then .ok b
  else
    match b.room with
    | none => .ok { b with text := b.text ++ text }
    | some (room + 1) => .ok { b with text := b.text ++ text, room := some room }
    | some 0 => .error .bufferFull

/-- A render into the buffer begins. -/
def enter (b : Buffer) : Buffer :=
  { b with depth := b.depth + 1 }

/-- A render into the buffer ends. -/
def leave (b : Buffer) : Buffer :=
  { b with depth := b.depth - 1 }

/-- The text of the buffer is lost. -/
def spoil (b : Buffer) : Buffer :=
  { b with broken := true }

/-- The text of a buffer that no render is writing to. From then on there is room for
everything. -/
def contents (b : Buffer) : Except Fault (String × Buffer) :=
  if b.depth != 0 then .error .bufferBusy
  else if b.broken then .error .bufferFull
  else .ok (b.text, { b with room := none })

end Buffer

end Stencil
