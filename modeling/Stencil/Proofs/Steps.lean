import Stencil.Render.World

/-!
# What steps do to a world

The computations that renders are made of, as functions from worlds to outcomes.
-/

namespace Stencil

namespace Buffer

theorem append_growing {b : Buffer} (hb : b.room = none) (text : String) :
    b.append text = .ok { b with text := b.text ++ text } := by
  unfold append
  split
  · next h => rw [String.isEmpty_iff.mp h, String.append_empty]
  · rw [hb]

end Buffer

namespace Render

variable {α β : Type}

theorem bind_apply (m : Render α) (f : α → Render β) (w : World) :
    (m >>= f) w = match m w with
      | (.ok a, v) => f a v
      | (.error e, v) => (.error e, v) := by
  show ExceptT.bindCont f (m w).1 (m w).2 = _
  rcases m w with ⟨_ | _, _⟩ <;> rfl

theorem result_apply (r : Except Fault α) (w : World) : result r w = (r, w) := by
  cases r <;> rfl

theorem tryCatch_apply (m : Render α) (handler : Fault → Render α) (w : World) :
    (tryCatch m handler : Render α) w = match m w with
      | (.ok a, v) => (.ok a, v)
      | (.error e, v) => handler e v := by
  simp only [tryCatch, tryCatchThe, MonadExceptOf.tryCatch, ExceptT.tryCatch, ExceptT.mk, bind,
    StateT.bind]
  rcases m w with ⟨_ | _, _⟩ <;> rfl

theorem append_apply (text : String) (w : World) :
    append text w = match w.buffer.append text with
      | .ok b => (.ok (), { w with buffer := b })
      | .error e => (.error e, w) := by
  show (match w.buffer.append text with
    | .ok buffer => set { w with buffer := buffer }
    | .error e => throw e : Render Unit) w = _
  cases w.buffer.append text <;> rfl

/-- A buffer that can grow takes every text. -/
theorem append_growing {w : World} (hw : w.buffer.room = none) (text : String) :
    append text w = (.ok (), { w with buffer := { w.buffer with text := w.buffer.text ++ text } }) := by
  rw [append_apply, Buffer.append_growing hw]

theorem contents_apply (w : World) :
    contents w = match w.buffer.contents with
      | .ok (text, b) => (.ok text, { w with buffer := b })
      | .error e => (.error e, w) := by
  show (match w.buffer.contents with
    | .ok (text, buffer) => do
      set { w with buffer := buffer }
      return text
    | .error e => throw e : Render String) w = _
  rcases w.buffer.contents with _ | ⟨_, _⟩ <;> rfl

end Render

end Stencil
