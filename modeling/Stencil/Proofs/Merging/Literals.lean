import Stencil.Proofs.Joining
import Stencil.Proofs.SideBySide.Execute

/-!
# Joining literals

Literals that are joined are one append instead of several. As long as the buffer can grow, which
every new buffer can, nobody can tell: the worlds behind are one and the same. The bond `growing`
says of two computations that they are one in such worlds, faults included, and that the buffer
goes on being able to grow.
-/

namespace Stencil

namespace Bond

/-- The worlds are one and the same, and the buffer can grow. -/
def growing : Bond Unit where
  inner := id
  fresh := ()
  buffers _ b b' := b = b' ∧ b.room = none
  bodies := Eq
  strict _ := True
  append := by
    rintro _ b _ text ⟨rfl, hb⟩
    rw [Buffer.append_growing hb]
    exact .ok ⟨rfl, hb⟩
  contents := by
    rintro _ b _ ⟨rfl, hb⟩
    unfold Buffer.contents
    split
    · exact .error _
    split
    · exact .error _
    · exact .ok ⟨rfl, rfl, rfl⟩
  enter := fun ⟨h, hb⟩ => ⟨h ▸ rfl, hb⟩
  leave := fun ⟨h, hb⟩ => ⟨h ▸ rfl, hb⟩
  empty := ⟨rfl, rfl⟩
  bodies_refl _ := rfl

variable {α : Type} {i : Unit} {w w' : World}

theorem tied_growing : w.Tied growing i w' ↔ w = w' ∧ w.buffer.room = none := by
  constructor
  · intro h
    have hbodies : w.bodies = w'.bodies :=
      Array.toList_inj.mp (List.forall₂_eq_eq_eq ▸ h.bodies)
    refine ⟨?_, h.buffer.2⟩
    cases w
    cases w'
    simp only [World.mk.injEq]
    exact ⟨h.buffer.1, h.cursors, h.frames, hbodies, h.nextId, h.registry⟩
  · rintro ⟨rfl, hw⟩
    exact ⟨⟨rfl, hw⟩, List.forall₂_eq_eq_eq ▸ rfl, List.nil_prefix, rfl, rfl, rfl, rfl⟩

/-- Computations that agree in growing worlds are one there. -/
theorem agree_growing {m m' : Render α} :
    growing.Agree i m m' ↔ ∀ w, w.buffer.room = none → m w = m' w ∧ (m w).2.buffer.room = none := by
  constructor
  · intro h w hw
    have hm := h (tied_growing.mpr ⟨rfl, hw⟩)
    rcases hr : m w with ⟨e | a, v⟩
    · rw [hr] at hm
      obtain ⟨h₁, h₂⟩ := hm trivial
      obtain ⟨rfl, hv⟩ := tied_growing.mp h₂
      exact ⟨Prod.ext h₁.symm rfl, hv⟩
    · rw [hr] at hm
      obtain ⟨h₁, h₂⟩ := hm
      obtain ⟨rfl, hv⟩ := tied_growing.mp h₂
      exact ⟨Prod.ext h₁.symm rfl, hv⟩
  · intro h v v' hv
    obtain ⟨rfl, hw⟩ := tied_growing.mp hv
    obtain ⟨h₁, h₂⟩ := h v hw
    rw [← h₁]
    exact Follows.same (tied_growing.mpr ⟨rfl, h₂⟩)

theorem growing_trans {m₁ m₂ m₃ : Render α} (h : growing.Agree i m₁ m₂)
    (h' : growing.Agree i m₂ m₃) : growing.Agree i m₁ m₃ := by
  rw [agree_growing] at h h' ⊢
  intro w hw
  exact ⟨(h w hw).1.trans (h' w hw).1, (h w hw).2⟩

theorem growing_runners (n : Nat) :
    growing.Runners (Render.performWithin n) (Render.performWithin n) :=
  performWithin_agree growing (fun _ hr b b' h i => by
    cases (h : b = b')
    exact agree_execPlan hr i b.plan b.scope) n

end Bond

/-! ## Plans -/

namespace Render

variable (run : Runner)

theorem execPlan_nil (scope : Scope) : execPlan run [] scope = pure () := by
  rw [execPlan]

theorem execPlan_cons (op : Op) (rest : Plan) (scope : Scope) :
    execPlan run (op :: rest) scope = execOp run op scope >>= fun _ => execPlan run rest scope := by
  rw [execPlan]

theorem execPlan_singleton (op : Op) (scope : Scope) :
    execPlan run [op] scope = execOp run op scope := by
  rw [execPlan_cons, execPlan_nil]
  exact bind_pure _

theorem execPlan_append (p q : Plan) (scope : Scope) :
    execPlan run (p ++ q) scope = execPlan run p scope >>= fun _ => execPlan run q scope := by
  induction p with
  | nil => rw [execPlan_nil, pure_bind, List.nil_append]
  | cons op p ih => rw [List.cons_append, execPlan_cons, execPlan_cons, ih, bind_assoc]

theorem execOp_literal (text : String) (scope : Scope) :
    execOp run (.literal text) scope = append text := by
  rw [execOp]

end Render

namespace Bond

open Render

variable {run : Runner}

theorem agree_append_append (a b : String) :
    growing.Agree () (do Render.append a; Render.append b) (Render.append (a ++ b)) := by
  rw [agree_growing]
  intro w hw
  let v : World := { w with buffer := { w.buffer with text := w.buffer.text ++ a } }
  have hv : v.buffer.room = none := hw
  rw [bind_apply, append_growing hw, append_growing hw]
  show Render.append b v = _ ∧ (Render.append b v).2.buffer.room = none
  rw [append_growing hv, String.append_assoc]
  exact ⟨rfl, hw⟩

theorem agree_append_empty : growing.Agree () (Render.append "") (pure ()) := by
  rw [agree_growing]
  intro w hw
  rw [append_growing hw, String.append_empty]
  exact ⟨rfl, hw⟩

/-- **Joining the literals of a plan makes no difference** in growing worlds. -/
theorem agree_joinLiterals (hr : growing.Runners run run) (plan : Plan) (scope : Scope) :
    growing.Agree () (execPlan run plan scope) (execPlan run (Merge.joinLiterals plan) scope) := by
  have hjoins := Merge.joins_joinLiterals plan
  generalize Merge.joinLiterals plan = joined at hjoins ⊢
  induction hjoins with
  | nil => exact agree_execPlan hr () [] scope
  | @keep op _ _ _ _ _ ih =>
    rw [execPlan_cons, execPlan_cons]
    exact (agree_execOp hr () op scope).bind fun _ => ih
  | drop hop _ ih =>
    rw [Op.eq_literal hop, execPlan_cons, execOp_literal]
    exact agree_append_empty.bind fun _ => ih
  | @join _ _ rest more first second hop _ hnext _ ih =>
    obtain rfl := Op.eq_literal hop
    obtain rfl := Op.eq_literal hnext
    have hrest : growing.Agree () (execPlan run (.literal first :: rest) scope)
        (execPlan run (.literal first :: .literal second :: more) scope) := by
      rw [execPlan_cons, execPlan_cons]
      exact (agree_execOp hr () (.literal first) scope).bind fun _ => ih
    refine growing_trans hrest ?_
    rw [execPlan_cons, execPlan_cons, execPlan_cons, execOp_literal, execOp_literal,
      execOp_literal, ← bind_assoc]
    exact (agree_append_append first second).bind fun _ => agree_execPlan hr () more scope

end Bond

end Stencil
