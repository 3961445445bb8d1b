import Stencil.Proofs.SideBySide.Evaluate

/-!
# Plans side by side

A plan does the same in worlds that are tied. What a component is given as its children may differ
on the two sides, as the bond says; so runners agree if children that may stand for each other do
the same. That is left to the user of a bond, and everything else follows (`performWithin_agree`).
-/

namespace Stencil

namespace Bond

variable {ι α β : Type} {B : Bond ι} {i : ι} {run run' : Runner}

/-! ## Arguments -/

mutual

theorem agree_argument (hr : B.Runners run run') (i : ι) :
    ∀ (c : Content) (scope : Scope),
      B.Agree i (Render.argument run c scope) (Render.argument run' c scope)
  | .literal text, scope => by
    unfold Render.argument
    exact Agree.pure _
  | .dynamic e _, scope => by
    unfold Render.argument
    exact agree_evaluate hr e scope
  | .toggle e, scope => by
    unfold Render.argument
    exact (agree_evaluate hr e scope).map _
  | .joined parts, scope => by
    unfold Render.argument
    exact (agree_argumentTexts hr i parts scope).map _
  | .unknown, scope => by
    unfold Render.argument
    exact Agree.throw _

theorem agree_argumentTexts (hr : B.Runners run run') (i : ι) :
    ∀ (parts : List Content) (scope : Scope),
      B.Agree i (Render.argumentTexts run parts scope) (Render.argumentTexts run' parts scope)
  | [], scope => by
    unfold Render.argumentTexts
    exact Agree.pure _
  | part :: rest, scope => by
    unfold Render.argumentTexts
    exact (agree_argument hr i part scope).bind fun _ => (Agree.result _).bind fun _ =>
      (agree_argumentTexts hr i rest scope).map _

end

theorem agree_arguments (hr : B.Runners run run') (scope : Scope) :
    ∀ (contents : List (String × Content)) (done : Arguments),
      B.Agree i (Render.arguments run scope contents done)
        (Render.arguments run' scope contents done)
  | [], _ => Agree.pure _
  | (_, content) :: rest, _ => (agree_argument hr i content scope).bind fun v =>
    (Agree.settle v).bind fun _ => agree_arguments hr scope rest _

theorem agree_partTexts (hr : B.Runners run run') (scope : Scope) :
    ∀ parts : List Part,
      B.Agree i (Render.partTexts run scope parts) (Render.partTexts run' scope parts)
  | [] => Agree.pure _
  | .text _ :: rest => (agree_partTexts hr scope rest).map _
  | .value e :: rest => (agree_evaluate hr e scope).bind fun _ => (Agree.result _).bind fun _ =>
    (agree_partTexts hr scope rest).map _

theorem agree_boundValues (hr : B.Runners run run') (names : List String) (item : Value) :
    B.Agree i (Render.boundValues run names item) (Render.boundValues run' names item) := by
  unfold Render.boundValues
  split
  · exact (Agree.settle item).map _
  · refine (agree_drain hr item).bind fun values => ?_
    split
    · exact Agree.settleAll values
    · exact Agree.throw _

theorem agree_bindNames (hr : B.Runners run run') (names : List String) (item : Value)
    (scope : Scope) :
    B.Agree i (Render.bindNames run names item scope) (Render.bindNames run' names item scope) :=
  (agree_boundValues hr names item).map _

/-! ## Components -/

/-- Children on one side that may stand for those on the other. -/
def Children (B : Bond ι) (scope : Scope) : Option Plan → Option Plan → Prop
  | none, none => True
  | some plan, some plan' => B.bodies ⟨plan, scope⟩ ⟨plan', scope⟩
  | _, _ => False

theorem agree_withChildren {children children' : Option Plan} {scope : Scope}
    (h : B.Children scope children children') (given : Arguments) :
    B.Agree i (Render.withChildren children scope given)
      (Render.withChildren children' scope given) := by
  match children, children', h with
  | none, none, _ => exact Agree.pure given
  | some plan, some plan', h =>
    exact (Agree.newBody h).bind fun v => (Agree.settle v).bind fun _ => Agree.pure _

theorem agree_callComponent (hr : B.Runners run run') (reference : Expr)
    (contents : List (String × Content)) {children children' : Option Plan} {scope : Scope}
    (h : B.Children scope children children') :
    B.Agree i (Render.callComponent run reference contents children scope)
      (Render.callComponent run' reference contents children' scope) := by
  refine (agree_evaluate hr reference scope).bind fun f => ?_
  refine Agree.ite _ (Agree.throw _) ?_
  exact (agree_arguments hr scope contents []).bind fun given =>
    (agree_withChildren h given).bind fun given =>
      (agree_call hr f [] given).bind fun v => agree_writeValue hr v

/-! ## Operations -/

mutual

theorem agree_execOp (hr : B.Runners run run') (i : ι) :
    ∀ (op : Op) (scope : Scope), B.Agree i (Render.execOp run op scope) (Render.execOp run' op scope)
  | .literal text, scope => by
    unfold Render.execOp
    exact Agree.append text
  | .escaped e inAttribute, scope => by
    unfold Render.execOp
    exact (agree_evaluate hr e scope).bind fun v =>
      Agree.ite inAttribute (agree_push v) (agree_writeValue hr v)
  | .joined parts, scope => by
    unfold Render.execOp
    exact (agree_partTexts hr scope parts).bind fun _ => agree_push _
  | .raw e, scope => by
    unfold Render.execOp
    exact (agree_evaluate hr e scope).bind fun _ => (Agree.result _).bind fun _ => Agree.append _
  | .branch branches, scope => by
    unfold Render.execOp
    exact agree_execBranches hr i branches scope
  | .loop names source body, scope => by
    unfold Render.execOp
    exact (agree_evaluate hr source scope).bind fun v =>
      agree_fold hr (fun _ item => (agree_bindNames hr names item scope).bind fun scope =>
        agree_execPlan hr i body scope) () v
  | .switch subject arms, scope => by
    unfold Render.execOp
    exact (agree_evaluate hr subject scope).bind fun v => agree_execArms hr i arms v scope
  | .toggle e body, scope => by
    unfold Render.execOp
    exact (agree_evaluate hr e scope).bind fun _ =>
      Agree.ite _ (agree_execPlan hr i body scope) (Agree.pure ())
  | .call reference contents children, scope => by
    unfold Render.execOp
    refine agree_callComponent hr reference contents ?_
    cases children with
    | none => exact trivial
    | some plan => exact B.bodies_refl _

theorem agree_execPlan (hr : B.Runners run run') (i : ι) :
    ∀ (plan : List Op) (scope : Scope),
      B.Agree i (Render.execPlan run plan scope) (Render.execPlan run' plan scope)
  | [], scope => by
    unfold Render.execPlan
    exact Agree.pure ()
  | op :: rest, scope => by
    unfold Render.execPlan
    exact (agree_execOp hr i op scope).bind fun _ => agree_execPlan hr i rest scope

theorem agree_execBranches (hr : B.Runners run run') (i : ι) :
    ∀ (branches : List (Option Expr × List Op)) (scope : Scope),
      B.Agree i (Render.execBranches run branches scope) (Render.execBranches run' branches scope)
  | [], scope => by
    unfold Render.execBranches
    exact Agree.pure ()
  | (none, body) :: _, scope => by
    unfold Render.execBranches
    exact agree_execPlan hr i body scope
  | (some condition, body) :: rest, scope => by
    unfold Render.execBranches
    exact (agree_evaluate hr condition scope).bind fun _ =>
      Agree.ite _ (agree_execPlan hr i body scope) (agree_execBranches hr i rest scope)

theorem agree_execArms (hr : B.Runners run run') (i : ι) :
    ∀ (arms : List (Option Expr × List Op)) (v : Value) (scope : Scope),
      B.Agree i (Render.execArms run arms v scope) (Render.execArms run' arms v scope)
  | [], v, scope => by
    unfold Render.execArms
    exact Agree.pure ()
  | (none, body) :: _, v, scope => by
    unfold Render.execArms
    exact agree_execPlan hr i body scope
  | (some pattern, body) :: rest, v, scope => by
    unfold Render.execArms
    exact (agree_evaluate hr pattern scope).bind fun _ => (Agree.result _).bind fun c =>
      Agree.ite c (agree_execPlan hr i body scope) (agree_execArms hr i rest v scope)

end

/-! ## Deferred renders -/

theorem agree_runSteps (hr : B.Runners run run') :
    ∀ steps : List Step, B.Agree i (Render.runSteps run steps) (Render.runSteps run' steps)
  | [] => Agree.pure ()
  | step :: rest => by
    refine Agree.bind ?_ fun _ => agree_runSteps hr rest
    cases step with
    | push v => exact agree_push v
    | raw text => exact Agree.append text
    | write v => exact agree_writeValue hr v
    | renderTo v => exact agree_renderTo hr v
    | contents => exact Agree.contents.bind fun _ => Agree.pure ()

/-- Children that may stand for each other do the same, for runners that agree. -/
def SameBodies (B : Bond ι) (run run' : Runner) : Prop :=
  ∀ ⦃b b' : Body⦄, B.bodies b b' → ∀ i,
    B.Agree i (Render.execPlan run b.plan b.scope) (Render.execPlan run' b'.plan b'.scope)

theorem agree_runBody (hb : B.SameBodies run run') (id : Nat) :
    B.Agree i (Render.runBody run id) (Render.runBody run' id) := by
  refine Agree.get fun {w w'} hw => ?_
  have h := List.forall₂_iff_get.1 hw.bodies
  have hsize : w.bodies.size = w'.bodies.size := by simpa using h.1
  rcases Nat.lt_or_ge id w.bodies.size with hid | hid
  · have hid' : id < w'.bodies.size := by omega
    rw [Array.getElem?_eq_getElem hid, Array.getElem?_eq_getElem hid']
    exact hb (by simpa using h.2 id (by simpa using hid) (by simpa using hid')) i
  · have hid' : w'.bodies.size ≤ id := by omega
    rw [Array.getElem?_eq_none hid, Array.getElem?_eq_none hid']
    exact Agree.throw _

theorem agree_runDeferred (hr : B.Runners run run') (hb : B.SameBodies run run')
    (action : Deferred) :
    B.Agree i (Render.runDeferred run action) (Render.runDeferred run' action) := by
  cases action with
  | bound t context => exact (agree_execPlan hr _ t.plan context).within
  | children id => exact agree_runBody hb id
  | steps steps => exact agree_runSteps hr steps
  | call f => exact (agree_call hr f _ _).bind fun _ => Agree.pure ()

theorem agree_resume (hr : B.Runners run run') (id : Nat) (item : Term) (clauses : List Clause)
    (env : Env) (loops : List Feed) :
    B.Agree i (Render.resume run id item clauses env loops)
      (Render.resume run' id item clauses env loops) :=
  (Agree.store id _).bind fun _ =>
    (Agree.cleanUp (agree_evalNext hr i clauses env (agree_eval hr i item env) (some loops))
      (Agree.store id _) fun _ => rfl).bind fun
    | none => (Agree.store id _).bind fun _ => Agree.pure _
    | some _ => (Agree.store id _).bind fun _ => Agree.pure _

theorem agree_next (hr : B.Runners run run') (id : Nat) :
    B.Agree i (Render.next run id) (Render.next run' id) := by
  refine Agree.get fun {w w'} hw => ?_
  rw [hw.cursors]
  split
  · exact Agree.pure _
  · exact agree_resume hr id _ _ _ _
  · exact Agree.throw _
  · exact agree_advance hr id _

/-- What a runner does one level above another agrees, if the two below do. -/
theorem agree_runner {n m : Nat}
    (hr : B.Runners (Render.performWithin n) (Render.performWithin m))
    (hb : B.SameBodies (Render.performWithin n) (Render.performWithin m)) :
    B.Runners (Render.performWithin (n + 1)) (Render.performWithin (m + 1)) :=
  ⟨fun _ action => agree_runDeferred hr hb action, fun _ id => agree_next hr id,
    fun _ f given named => agree_call hr f given named⟩

/-- **A bond lasts through all that a runner does**, if it does for children that may stand for each
other. -/
theorem performWithin_agree (B : Bond ι)
    (hb : ∀ n, B.Runners (Render.performWithin n) (Render.performWithin n) →
      B.SameBodies (Render.performWithin n) (Render.performWithin n)) :
    ∀ n, B.Runners (Render.performWithin n) (Render.performWithin n)
  | 0 => ⟨fun _ _ => Agree.throw _, fun _ _ => Agree.throw _, fun _ _ _ _ => Agree.throw _⟩
  | n + 1 =>
    have hr := performWithin_agree B hb n
    agree_runner hr (hb n hr)

end Bond

end Stencil
