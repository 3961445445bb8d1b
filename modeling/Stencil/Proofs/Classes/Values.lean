import Stencil.Proofs.Merging.Literals
import Stencil.Proofs.Steps
import Stencil.Source.Classes

/-!
# Values of classes

The classes of an element are texts or expressions, and become one value (`joinClasses`). **However
many of them are texts, the value comes to the same**: the texts that are not empty, joined by single
spaces. If all are texts, they are joined when the template is read. If not, they are joined when it
is rendered, in one way for an attribute in a tag (`exists_classOp`) and in another for an argument
of a component (`argument_joinClasses`).

Rendering evaluates expressions one after the other, and each may change the world for the next. So
what classes come to is said step by step (`Yields`).
-/

namespace Stencil

open Source

/-- The value of a class: a text or an expression. -/
def Content.IsClassValue : Content → Prop
  | .literal _ => True
  | .dynamic .. => True
  | _ => False

namespace Render

/-- Classes come to these texts if they are evaluated in order from one world on, which leaves
another. `None` comes to the empty text. -/
inductive Yields (run : Runner) (scope : Scope) :
    List Content → World → List String → World → Prop
  | nil (w : World) : Yields run scope [] w [] w
  | literal {values : List Content} {w w' : World} {texts : List String} (s : String)
      (h : Yields run scope values w texts w') :
      Yields run scope (.literal s :: values) w (s :: texts) w'
  | dynamic {values : List Content} {w w₁ w' : World} {texts : List String} {e : Expr} {v : Value}
      {s : String} (raw : Bool) (hv : evaluate run e scope w = (.ok v, w₁))
      (hs : v.written = .ok s) (h : Yields run scope values w₁ texts w') :
      Yields run scope (.dynamic e raw :: values) w (s :: texts) w'

theorem bind_of_ok {α β : Type} {m : Render α} {w w' : World} {a : α} (h : m w = (.ok a, w'))
    (f : α → Render β) : (m >>= f) w = f a w' := by
  rw [bind_apply, h]

theorem push_ofString (s : String) : push (.ofString s) = append (Text.escape s) := by
  have hmarkup : (Value.ofString s).markup = .ok (Text.escape s) := rfl
  rw [push, hmarkup, result, pure_bind]

variable {run : Runner} {scope : Scope} {values : List Content} {w w' : World}
  {texts : List String}

/-! ## Texts only -/

theorem Yields.of_literals (hall : values.all (fun c => c.literal?.isSome) = true)
    (h : Yields run scope values w texts w') :
    texts = values.filterMap Content.literal? ∧ w' = w := by
  induction h with
  | nil => exact ⟨rfl, rfl⟩
  | literal s h ih =>
    rw [List.all_cons, Bool.and_eq_true] at hall
    obtain ⟨htexts, hw⟩ := ih hall.2
    exact ⟨congrArg (s :: ·) htexts, hw⟩
  | dynamic raw hv hs h ih => cases hall

theorem joinClasses_literals (hall : values.all (fun c => c.literal?.isSome) = true) :
    joinClasses values = .literal (Generate.joinTexts (values.filterMap Content.literal?)) := by
  rw [joinClasses, if_pos hall]
  rfl

theorem joinClasses_mixed (hall : ¬ values.all (fun c => c.literal?.isSome) = true) :
    joinClasses values = .joined values := by
  rw [joinClasses, if_neg hall]

/-! ## Parts of an attribute -/

/-- Classes become parts, which come to the same texts. They are joined early only if all of them
are texts. -/
theorem exists_parts_yields (run : Runner) (scope : Scope) :
    ∀ values : List Content, (∀ c ∈ values, c.IsClassValue) →
      ∃ parts, values.mapM Generate.part = .ok parts ∧
        ((Generate.literalTexts? parts).isSome = values.all fun c => c.literal?.isSome) ∧
        ∀ {w texts w'}, Yields run scope values w texts w' →
          partTexts run scope parts w = (.ok texts, w')
  | [], _ => by
    refine ⟨[], rfl, rfl, fun h => ?_⟩
    cases h
    rw [partTexts]
    rfl
  | c :: rest, hvalues => by
    rw [List.forall_mem_cons] at hvalues
    obtain ⟨parts, hparts, hall, hyields⟩ := exists_parts_yields run scope rest hvalues.2
    cases c with
    | literal s =>
      refine ⟨.text s :: parts, ?_, ?_, fun h => ?_⟩
      · rw [List.mapM_cons, hparts]
        rfl
      · rw [Generate.literalTexts?, Option.isSome_map, hall]
        rfl
      · cases h with
        | literal _ h =>
          rw [partTexts, bind_of_ok (hyields h)]
          rfl
    | dynamic e raw =>
      refine ⟨.value e :: parts, ?_, rfl, fun h => ?_⟩
      · rw [List.mapM_cons, hparts]
        rfl
      · cases h with
        | dynamic _ hv hs h =>
          rw [partTexts, bind_of_ok hv, hs, result, pure_bind, bind_of_ok (hyields h)]
          rfl
    | toggle | joined | unknown => exact hvalues.1.elim

/-- **The operation for joined classes writes what they come to**, joined and escaped, whether they
were joined early or are joined now. -/
theorem exists_classOp (run : Runner) (scope : Scope) (hvalues : ∀ c ∈ values, c.IsClassValue) :
    ∃ op, Generate.attributeValue (joinClasses values) = .ok op ∧
      ∀ {w texts w'}, Yields run scope values w texts w' →
        execOp run op scope w =
          execOp run (.literal (Text.escape (Generate.joinTexts texts))) scope w' := by
  by_cases hall : values.all (fun c => c.literal?.isSome) = true
  · refine ⟨_, by rw [joinClasses_literals hall, Generate.attributeValue], fun h => ?_⟩
    obtain ⟨rfl, rfl⟩ := h.of_literals hall
    rfl
  · obtain ⟨parts, hparts, hsome, hyields⟩ := exists_parts_yields run scope values hvalues
    have hnone : Generate.literalTexts? parts = none := by
      rw [← Option.not_isSome_iff_eq_none, hsome]
      exact hall
    refine ⟨.joined parts, ?_, fun h => ?_⟩
    · rw [joinClasses_mixed hall, Generate.attributeValue, hparts]
      show Except.ok (Generate.joinParts parts) = _
      rw [Generate.joinParts, hnone]
    · rw [execOp, execOp, bind_of_ok (hyields h), push_ofString]

/-! ## An argument of a component -/

theorem argumentTexts_yields (h : Yields run scope values w texts w') :
    argumentTexts run values scope w = (.ok texts, w') := by
  induction h with
  | nil w =>
    rw [argumentTexts]
    rfl
  | literal s h ih =>
    rw [argumentTexts, argument, pure_bind]
    rw [show (Value.ofString s).written = .ok s from rfl, result, pure_bind, bind_of_ok ih]
    rfl
  | dynamic raw hv hs h ih =>
    rw [argumentTexts, argument, bind_of_ok hv, hs, result, pure_bind, bind_of_ok ih]
    rfl

/-- **The argument for joined classes is what they come to**, joined and not escaped. -/
theorem argument_joinClasses (h : Yields run scope values w texts w') :
    argument run (joinClasses values) scope w =
      (.ok (.ofString (Generate.joinTexts texts)), w') := by
  by_cases hall : values.all (fun c => c.literal?.isSome) = true
  · obtain ⟨rfl, rfl⟩ := h.of_literals hall
    rw [joinClasses_literals hall, argument]
    rfl
  · rw [joinClasses_mixed hall, argument, bind_of_ok (argumentTexts_yields h)]
    rfl

end Render

end Stencil
