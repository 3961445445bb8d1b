import Stencil.Proofs.Components.Arguments
import Stencil.Proofs.SideBySide.Elsewhere

/-!
# Calls of components

A call evaluates its arguments in the scope that it stands in, and hands them to the component by
name (`Passed`). A component that is a template sees them and nothing else. The children of the call
are handed over as a deferred render, and whoever performs it, whenever, runs their plan over the
scope of the call: they are found by their number in a store that only grows (`keeps_perform`).
-/

namespace Stencil

variable {α : Type}

/-! ## Children stay where they are -/

/-- The children that are there in a world are there in a later one, with the same numbers. -/
def World.Before (w u : World) : Prop :=
  w.bodies.toList <+: u.bodies.toList

theorem World.Before.getElem? {w u : World} (h : w.Before u) {id : Nat} {body : Body}
    (hbody : w.bodies[id]? = some body) : u.bodies[id]? = some body := by
  obtain ⟨more, hmore⟩ := h
  rw [← Array.getElem?_toList] at hbody ⊢
  rw [← hmore, List.getElem?_append_left (List.getElem?_eq_some_iff.mp hbody).1, hbody]

namespace Render

/-- The world that a computation leaves is a later one. -/
def Keeps (m : Render α) : Prop :=
  ∀ w : World, w.Before (m w).2

theorem keeps_of_agree {m : Render α}
    (h : ∀ kept, (Bond.together (fun _ => True) kept).Agree () m m) : Keeps m := by
  intro w
  have htied : w.Tied (Bond.together (fun _ => True) w.bodies.toList) () w :=
    World.tied_with (b := w.buffer) rfl rfl List.prefix_rfl
  exact (((h _) htied).outcome fun _ => trivial).2.kept

theorem together_runners (kept : List Body) (n : Nat) :
    (Bond.together (fun _ => True) kept).Runners (performWithin n) (performWithin n) :=
  Bond.performWithin_agree _ (fun _ hr => Bond.sameBodies_of_eq rfl hr) n

/-- **No render loses children.** -/
theorem keeps_perform (n : Nat) (action : Deferred) : Keeps ((performWithin n).perform action) :=
  keeps_of_agree fun kept => (together_runners kept n).perform () action

theorem keeps_execPlan (n : Nat) (plan : Plan) (scope : Scope) :
    Keeps (execPlan (performWithin n) plan scope) :=
  keeps_of_agree fun kept => Bond.agree_execPlan (together_runners kept n) () plan scope

theorem keeps_evaluate (n : Nat) (e : Expr) (scope : Scope) :
    Keeps (evaluate (performWithin n) e scope) :=
  keeps_of_agree fun kept => Bond.agree_evaluate (together_runners kept n) e scope

/-- Children are run over the scope that they were given with. -/
theorem perform_children {w u : World} {id : Nat} {plan : Plan} {scope : Scope}
    (hbody : w.bodies[id]? = some ⟨plan, scope⟩) (h : w.Before u) (k : Nat) :
    (performWithin (k + 1)).perform (.children id) u = execPlan (performWithin k) plan scope u := by
  have hget : (get : Render World) u = (.ok u, u) := rfl
  show runBody (performWithin k) id u = _
  rw [runBody, bind_apply, hget]
  dsimp only
  rw [h.getElem? hbody]

/-! ## What a component is called with -/

/-- What a component is called with: each name once, in the order in which it comes first, with the
value of the last argument of this name. If the call has children, `children` is the deferred render
of their plan over the scope of the call, in every later world, and otherwise no more than an
argument. -/
structure Passed (contents : List (String × Content)) (values : List (String × Value))
    (children : Option Plan) (scope : Scope) (w : World) (given : Arguments) (w' : World) :
    Prop where
  names : given.map Prod.fst =
    (contents.map Prod.fst ++ children.toList.map fun _ => "children").eraseDups
  nodup : (given.map Prod.fst).Nodup
  last : ∀ name, children = none ∨ name ≠ "children" →
    Value.named? name given = Value.named? name values.reverse
  body : ∀ plan, children = some plan → ∃ id,
    Value.named? "children" given = some (.lazy (.made w.nextId) (.children id)) ∧
    w' = { w with bodies := w.bodies.push ⟨plan, scope⟩, nextId := w.nextId + 1 } ∧
    ∀ k u, w'.Before u →
      (performWithin (k + 1)).perform (.children id) u = execPlan (performWithin k) plan scope u
  alone : children = none → w' = w
  absent : Value.named? "children" given = none ↔
    children = none ∧ "children" ∉ contents.map Prod.fst

variable {run : Runner} {scope : Scope} {contents : List (String × Content)}
  {values : List (String × Value)} {w w₁ : World}

theorem passed_alone (h : values.map Prod.fst = contents.map Prod.fst) (w : World) :
    Passed contents values none scope w (Arguments.collect values) w where
  names := by rw [Arguments.map_collect, h]; simp
  nodup := Arguments.nodup_collect values
  last name _ := Arguments.named_collect values name
  body := nofun
  alone _ := rfl
  absent := by
    rw [Value.named_eq_none, Arguments.map_collect, List.mem_eraseDups, h]
    exact ⟨fun hnot => ⟨rfl, hnot⟩, And.right⟩

theorem passed_body (h : values.map Prod.fst = contents.map Prod.fst) (plan : Plan) (w : World) :
    Passed contents values (some plan) scope w
      ((Arguments.collect values).insert "children"
        (.lazy (.made w.nextId) (.children w.bodies.size)))
      { w with bodies := w.bodies.push ⟨plan, scope⟩, nextId := w.nextId + 1 } where
  names := by rw [← Arguments.collect_concat, Arguments.map_collect, List.map_append, h]; rfl
  nodup := by rw [← Arguments.collect_concat]; exact Arguments.nodup_collect _
  last name hname := by
    have hne : "children" ≠ name := fun heq => hname.elim nofun fun hne => hne heq.symm
    rw [Value.named_insert_ne hne, Arguments.named_collect]
  body plan' hplan := by
    cases hplan
    refine ⟨w.bodies.size, Value.named_insert_self .., rfl, fun k u hu => ?_⟩
    exact perform_children (by simp) hu k
  alone := nofun
  absent := by
    rw [Value.named_insert_self]
    exact ⟨nofun, fun hnone => absurd hnone.1 (Option.some_ne_none plan)⟩

theorem withChildren_outcome (children : Option Plan) (scope : Scope)
    (h : values.map Prod.fst = contents.map Prod.fst) (w : World) :
    ∃ given w', Passed contents values children scope w given w' ∧
      withChildren children scope (Arguments.collect values) w = (.ok given, w') := by
  cases children with
  | none => exact ⟨_, _, passed_alone h w, rfl⟩
  | some plan => exact ⟨_, _, passed_body h plan w, rfl⟩

/-! ## Templates as components -/

/-- An outcome is that of rendering a template with arguments as its whole context, to the buffer of
a world or, if that has room for everything, to a buffer of its own. -/
structure IsRender (n : Nat) (place : Mark) (t : Template) (given : Arguments) (w : World)
    (outcome : Except Fault Unit × World) : Prop where
  writes : outcome = writeSelf (performWithin n) (.template place t) given w
  runs : ∀ k, n = k + 1 → outcome = within (execPlan (performWithin k) t.plan given) w
  appends : w.buffer.room = none → ∃ (ended : Except Fault Unit) (v : World) (text : String),
    outcome = (ended, { v with buffer := w.buffer.moved 0 text none }) ∧
    ∀ mark, call (performWithin n) (.method mark (.template place t) .render) [] given w =
      (ended.map fun _ => .rendered .fresh text, { v with buffer := w.buffer })

theorem isRender_writeSelf (n : Nat) (place : Mark) (t : Template) (given : Arguments) (w : World) :
    IsRender n place t given w (writeSelf (performWithin n) (.template place t) given w) where
  writes := rfl
  runs k hk := by
    subst hk
    rfl
  appends hroom := by
    obtain ⟨ended, v, text, hwrote, hfresh⟩ :=
      (appends_perform_bound n t given).onFreshBuffer hroom
    exact ⟨ended, v, text, hwrote, fun _ => renderSelf_apply (v := .template place t) hfresh⟩

theorem writeValue_call_template (n : Nat) (place : Mark) (t : Template) (given : Arguments) :
    (do writeValue (performWithin n) (← call (performWithin n) (.template place t) [] given)) =
      writeSelf (performWithin n) (.template place t) given := by
  have hcall : call (performWithin n) (.template place t) [] given =
      pure (.lazy .fresh (.bound t given)) := rfl
  rw [hcall, pure_bind, writeValue_lazy]
  exact (appends_perform_bound n t given).within_eq

/-! ## Calls -/

theorem callComponent_of_evaluate {reference : Expr} {children : Option Plan} {f : Value}
    {w₀ : World} (hreference : evaluate run reference scope w = (.ok f, w₀))
    (hf : f.isCallable = true) :
    callComponent run reference contents children scope w =
      (do
        let given ← withChildren children scope (← arguments run scope contents [])
        writeValue run (← call run f [] given)) w₀ := by
  rw [callComponent, bind_apply, hreference]
  simp only [hf]
  rfl

/-- **What a component is given.** A call evaluates its arguments one after the other, each once, in
its own scope and before the component is called, and ends with the fault of the first one that
fails. If none does, the component is called with the last value of each name, settled but not
changed otherwise, and with the children, which see the scope of the call whoever performs them
and whenever that is, since no render loses them. A component that is a template is rendered with
just that as its context. -/
theorem call_passes (n : Nat) (reference : Expr) (contents : List (String × Content))
    (children : Option Plan) (scope : Scope) {f : Value} {w w₀ : World}
    (hreference : evaluate (performWithin n) reference scope w = (.ok f, w₀))
    (hf : f.isCallable = true) :
    (let run := performWithin n
      let outcome := execOp run (.call reference contents children) scope w
      (∃ x w', FirstFault run scope contents w₀ x w' ∧ outcome = (.error x, w')) ∨
      ∃ values w₁ given w₂, Evaluated run scope contents w₀ values w₁ ∧
        Passed contents values children scope w₁ given w₂ ∧
        outcome = (do writeValue run (← call run f [] given) : Render Unit) w₂ ∧
        ∀ place t, f = .template place t → IsRender n place t given w₂ outcome) ∧
    (∀ (v : Value) (id : Nat), (v.settle id).1.unmarked = v.unmarked ∧
      ∀ later, (v.settle id).1.settle later = ((v.settle id).1, later)) ∧
    ∀ k, (∀ action, Keeps ((performWithin k).perform action)) ∧
      (∀ plan scope, Keeps (execPlan (performWithin k) plan scope)) ∧
      ∀ e scope, Keeps (evaluate (performWithin k) e scope) := by
  refine ⟨?_, fun v id => ⟨v.unmarked_settle id, v.settle_settle id⟩,
    fun k => ⟨keeps_perform k, keeps_execPlan k, keeps_evaluate k⟩⟩
  intro run outcome
  have hcall : outcome = callComponent run reference contents children scope w := by
    rw [← execOp]
  rw [hcall, callComponent_of_evaluate hreference hf]
  rcases arguments_outcome contents [] w₀ with ⟨values, w₁, hvalues, h⟩ | ⟨x, w', hfault, h⟩
  · right
    obtain ⟨given, w₂, hpassed, hgiven⟩ := withChildren_outcome children scope hvalues.map_eq w₁
    -- from here on only the call itself is left, in the state behind the arguments
    have hrun : (do
        let given ← withChildren children scope (← arguments run scope contents [])
        writeValue run (← call run f [] given)) w₀ =
          (do writeValue run (← call run f [] given) : Render Unit) w₂ := by
      rw [bind_apply, h]
      dsimp only
      rw [bind_apply, ← Arguments.collect, hgiven]
    rw [hrun]
    refine ⟨values, w₁, given, w₂, hvalues, hpassed, rfl, fun place t ht => ?_⟩
    rw [ht, writeValue_call_template]
    exact isRender_writeSelf n place t given w₂
  · left
    refine ⟨x, w', hfault, ?_⟩
    rw [bind_apply, h]

set_option maxRecDepth 20000 in
theorem reads_c : Term.read? (Expr.codeText "c") = some (.name "c") := rfl

set_option maxRecDepth 20000 in
theorem reads_a : Term.read? (Expr.codeText "a") = some (.name "a") := rfl

/-- A component that writes an argument and its children. -/
def note : Except CompileError Template :=
  (Template.compile .builtin .rsx "<i>{a}</i>{children}" "note" false).2

/-- It is given an argument twice, under a name that is looked up in its children, too. -/
def noteCall : Op :=
  .call ⟨"c", .name "c", none, reads_c⟩ [("a", .literal "1"), ("a", .literal "2")]
    (some [.escaped ⟨"a", .name "a", none, reads_a⟩ false])

def noteScope (t : Template) : Scope :=
  [("c", .template .stock t), ("a", .ofString "3")]

theorem call_passes_note :
    ∃ (t : Template) (given : Arguments) (w : World), note = .ok t ∧
      Value.isCallable (.template .stock t) = true ∧
      given.map Prod.fst = ["a", "children"] ∧
      IsRender 2 .stock t given w (execOp (performWithin 2) noteCall (noteScope t) {}) ∧
      (execOp (performWithin 2) noteCall (noteScope t) {}).2.buffer.text = "<i>2</i>3" := by
  have hrun : (match note with
      | .ok t =>
        let outcome := execOp (performWithin 2) noteCall (noteScope t) {}
        outcome.1.toOption.isSome && outcome.2.buffer.text == "<i>2</i>3"
      | .error _ => false) = true := by decide +kernel
  rcases hnote : note with e | t <;> rw [hnote] at hrun
  · cases hrun
  obtain ⟨hended, htext⟩ := Bool.and_eq_true_iff.mp hrun
  have hreference : evaluate (performWithin 2) ⟨"c", .name "c", none, reads_c⟩ (noteScope t) {} =
      (.ok (.template .stock t), {}) := rfl
  obtain ⟨houtcome | houtcome, -⟩ := call_passes 2 ⟨"c", .name "c", none, reads_c⟩
    [("a", .literal "1"), ("a", .literal "2")]
    (some [.escaped ⟨"a", .name "a", none, reads_a⟩ false]) (noteScope t) hreference rfl
  · obtain ⟨x, w', -, hfailed⟩ := houtcome
    have hnever : (Except.error x : Except Fault Unit).toOption.isSome = true :=
      (congrArg (fun o => o.1.toOption.isSome) hfailed).symm.trans hended
    cases hnever
  · obtain ⟨values, w₁, given, w₂, -, hpassed, -, htemplate⟩ := houtcome
    exact ⟨t, given, w₂, rfl, rfl, hpassed.names.trans (by decide), htemplate _ t rfl,
      beq_iff_eq.mp htext⟩

end Render

end Stencil
