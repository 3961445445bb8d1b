import Stencil.Proofs.SideBySide.Call

/-!
# Evaluation side by side

Terms have the same value in worlds that are tied, and the worlds are tied afterwards. The proof
goes by recursion on terms and the lists in them, like evaluation itself.
-/

namespace Stencil

namespace Bond

variable {ι α β : Type} {B : Bond ι} {i : ι} {run run' : Runner}

/-! ## Relations and operators -/

theorem agree_holds (hr : B.Runners run run') (container item : Value) :
    B.Agree i (Render.holds run container item) (Render.holds run' container item) := by
  unfold Render.holds
  split
  case h_6 id => exact (agree_findPull hr (fun v => Agree.pure _) _ _).map _
  case h_1 => exact Agree.ite _ (Agree.pure _) (Agree.throw _)
  case h_7 => split <;> first | exact Agree.pure _ | exact Agree.throw _
  all_goals first
    | exact Agree.result _
    | exact Agree.pure _

theorem agree_relate (hr : B.Runners run run') (op : CompareOp) (a b : Value) :
    B.Agree i (Render.relate run op a b) (Render.relate run' op a b) := by
  unfold Render.relate
  split
  · exact Agree.result _
  · exact (Agree.result _).map _
  · exact Agree.pure _
  · exact Agree.pure _
  · exact agree_holds hr b a
  · exact (agree_holds hr b a).map _
  · exact Agree.result _

theorem agree_repeatable (v : Value) :
    B.Agree i (Render.repeatable v) (Render.repeatable v) := by
  unfold Render.repeatable
  split
  · exact Agree.settle _
  · exact Agree.settle _
  · exact Agree.pure _

theorem agree_operate (hr : B.Runners run run') (op : BinaryOp) (a b : Value) :
    B.Agree i (Render.operate run op a b) (Render.operate run' op a b) := by
  unfold Render.operate
  split
  · exact (agree_repeatable a).bind fun _ => (agree_repeatable b).bind fun _ => Agree.result _
  · exact Agree.ite _
      ((agree_drain hr a).bind fun _ => (agree_drain hr b).bind fun _ => Agree.result _)
      (Agree.result _)
  · exact Agree.result _

/-! ## Terms -/

mutual

theorem agree_eval (hr : B.Runners run run') (i : ι) :
    ∀ (t : Term) (env : Env), B.Agree i (Render.eval run t env) (Render.eval run' t env)
  | .lit value, env => by
    unfold Render.eval
    exact Agree.pure _
  | .name id, env => by
    unfold Render.eval
    exact agree_lookup env id
  | .tuple items, env => by
    unfold Render.eval
    exact (agree_evalAll hr i items env).map _
  | .list items, env => by
    unfold Render.eval
    exact (agree_evalAll hr i items env).map _
  | .dict entries, env => by
    unfold Render.eval
    exact (agree_evalEntries hr i entries env).bind fun _ => Agree.result _
  | .member subject name, env => by
    unfold Render.eval
    exact (agree_eval hr i subject env).bind fun _ => Agree.result _
  | .index subject key, env => by
    unfold Render.eval
    exact (agree_eval hr i subject env).bind fun _ =>
      (agree_eval hr i key env).bind fun _ => (Agree.result _).map _
  | .slice subject low high, env => by
    unfold Render.eval
    exact (agree_eval hr i subject env).bind fun _ => (agree_evalBound hr i low env).bind fun _ =>
      (agree_evalBound hr i high env).bind fun _ => Agree.result _
  | .slices subject parts, env => by
    unfold Render.eval
    exact (agree_eval hr i subject env).bind fun _ => (agree_evalAll hr i parts env).bind fun _ =>
      Agree.throw _
  | .call function arguments, env => by
    unfold Render.eval
    exact (agree_eval hr i function env).bind fun _ =>
      (agree_evalAll hr i arguments env).bind fun _ => agree_call hr _ _ _
  | .unary op operand, env => by
    unfold Render.eval
    exact (agree_eval hr i operand env).bind fun _ => (Agree.result _).map _
  | .binary op left right, env => by
    unfold Render.eval
    exact (agree_eval hr i left env).bind fun _ => (agree_eval hr i right env).bind fun _ =>
      (agree_operate hr op _ _).map _
  | .compare first rest, env => by
    unfold Render.eval
    exact (agree_eval hr i first env).bind fun v => agree_evalChain hr i rest v env
  | .and left right, env => by
    unfold Render.eval
    exact (agree_eval hr i left env).bind fun _ =>
      Agree.ite _ (agree_eval hr i right env) (Agree.pure _)
  | .or left right, env => by
    unfold Render.eval
    exact (agree_eval hr i left env).bind fun _ =>
      Agree.ite _ (Agree.pure _) (agree_eval hr i right env)
  | .choose condition yes no, env => by
    unfold Render.eval
    exact (agree_eval hr i condition env).bind fun _ =>
      Agree.ite _ (agree_eval hr i yes env) (agree_eval hr i no env)
  | .listOf item clauses, env => by
    unfold Render.eval
    exact (Agree.newFrame _).bind fun frame =>
      (agree_evalClauses hr i clauses env (env.enter frame)
        (agree_eval hr i item _) []).map _
  | .generator item clauses, env => by
    unfold Render.eval
    exact (agree_evalSource hr i clauses env).bind fun _ => (Agree.newFrame _).bind fun _ =>
      Agree.newIterator _ _

theorem agree_evalAll (hr : B.Runners run run') (i : ι) :
    ∀ (ts : List Term) (env : Env), B.Agree i (Render.evalAll run ts env) (Render.evalAll run' ts env)
  | [], env => by
    unfold Render.evalAll
    exact Agree.pure _
  | t :: rest, env => by
    unfold Render.evalAll
    exact (agree_eval hr i t env).bind fun _ => (agree_evalAll hr i rest env).map _

theorem agree_evalEntries (hr : B.Runners run run') (i : ι) :
    ∀ (entries : List (Term × Term)) (env : Env),
      B.Agree i (Render.evalEntries run entries env) (Render.evalEntries run' entries env)
  | [], env => by
    unfold Render.evalEntries
    exact Agree.pure _
  | (k, t) :: rest, env => by
    unfold Render.evalEntries
    exact (agree_eval hr i k env).bind fun _ => (agree_eval hr i t env).bind fun _ =>
      (agree_evalEntries hr i rest env).map _

theorem agree_evalBound (hr : B.Runners run run') (i : ι) :
    ∀ (t : Option Term) (env : Env),
      B.Agree i (Render.evalBound run t env) (Render.evalBound run' t env)
  | none, env => by
    unfold Render.evalBound
    exact Agree.pure _
  | some t, env => by
    unfold Render.evalBound
    exact agree_eval hr i t env

theorem agree_evalChain (hr : B.Runners run run') (i : ι) :
    ∀ (rest : List (CompareOp × Term)) (left : Value) (env : Env),
      B.Agree i (Render.evalChain run rest left env) (Render.evalChain run' rest left env)
  | [], left, env => by
    unfold Render.evalChain
    exact Agree.pure _
  | (op, t) :: rest, left, env => by
    unfold Render.evalChain
    exact (agree_eval hr i t env).bind fun right => (agree_relate hr op left right).bind fun _ =>
      Agree.ite _ (agree_evalChain hr i rest right env) (Agree.pure _)

theorem agree_evalConditions (hr : B.Runners run run') (i : ι) :
    ∀ (ts : List Term) (env : Env),
      B.Agree i (Render.evalConditions run ts env) (Render.evalConditions run' ts env)
  | [], env => by
    unfold Render.evalConditions
    exact Agree.pure _
  | t :: rest, env => by
    unfold Render.evalConditions
    exact (agree_eval hr i t env).bind fun _ =>
      Agree.ite _ (agree_evalConditions hr i rest env) (Agree.pure _)

theorem agree_evalSource (hr : B.Runners run run') (i : ι) :
    ∀ (clauses : List Clause) (env : Env),
      B.Agree i (Render.evalSource run clauses env) (Render.evalSource run' clauses env)
  | [], env => by
    unfold Render.evalSource
    exact Agree.pure _
  | .mk _ source _ :: _, env => by
    unfold Render.evalSource
    exact (agree_eval hr i source env).bind fun _ => Agree.result _

theorem agree_evalClauses (hr : B.Runners run run') (i : ι) :
    ∀ (clauses : List Clause) (outer inner : Env) {item item' : Render Value},
      B.Agree i item item' → ∀ acc : List Value,
      B.Agree i (Render.evalClauses run clauses outer inner item acc)
        (Render.evalClauses run' clauses outer inner item' acc)
  | [], _, _, _, _, h, acc => by
    unfold Render.evalClauses
    exact h.map _
  | .mk target source conditions :: rest, outer, inner, _, _, h, acc => by
    unfold Render.evalClauses
    exact (agree_eval hr i source outer).bind fun v =>
      agree_fold hr (fun acc v => (agree_bindTarget hr inner.own target v).bind fun _ =>
        (agree_evalConditions hr i conditions inner).bind fun c =>
          Agree.ite c (agree_evalClauses hr i rest inner inner h acc) (Agree.pure acc)) acc v

theorem agree_evalNext (hr : B.Runners run run') (i : ι) :
    ∀ (clauses : List Clause) (env : Env) {item item' : Render Value},
      B.Agree i item item' → ∀ loops : Option (List Feed),
      B.Agree i (Render.evalNext run clauses env item loops)
        (Render.evalNext run' clauses env item' loops)
  | [], _, _, _, h, none => by
    unfold Render.evalNext
    exact h.map _
  | [], _, _, _, h, some _ => by
    unfold Render.evalNext
    exact Agree.pure _
  | .mk target source conditions :: rest, env, item, item', h, loops => by
    -- What is left to do once the feed of the loop is known and its body was resumed.
    have last : ∀ (feed : Feed) (resumed : Option (Value × List Feed)),
        B.Agree i
          (match resumed with
            | some (v, inner) => return some (v, feed :: inner)
            | none => do
              let found ← Render.findPull run (fun v => do
                Render.bindTarget run env.own target v
                if ← Render.evalConditions run conditions env then
                  Render.evalNext run rest env item none
                else return none) Render.pullLimit feed
              return found.map fun ((v, inner), feed) => (v, feed :: inner) :
                Render (Option (Value × List Feed)))
          (match resumed with
            | some (v, inner) => return some (v, feed :: inner)
            | none => do
              let found ← Render.findPull run' (fun v => do
                Render.bindTarget run' env.own target v
                if ← Render.evalConditions run' conditions env then
                  Render.evalNext run' rest env item' none
                else return none) Render.pullLimit feed
              return found.map fun ((v, inner), feed) => (v, feed :: inner)) := by
      intro feed resumed
      cases resumed with
      | some found => exact Agree.pure _
      | none =>
        exact (agree_findPull hr (fun v => (agree_bindTarget hr env.own target v).bind fun _ =>
          (agree_evalConditions hr i conditions env).bind fun c =>
            Agree.ite c (agree_evalNext hr i rest env h none) (Agree.pure none)) _ feed).map _
    unfold Render.evalNext
    match loops with
    | none =>
      exact (agree_eval hr i source env).bind fun v => (Agree.result _).bind fun feed =>
        (Agree.pure none).bind fun resumed => last feed resumed
    | some [] =>
      exact (Agree.pure _).bind fun feed => (Agree.pure none).bind fun resumed => last feed resumed
    | some (feed :: inner) =>
      exact (Agree.pure _).bind fun feed =>
        (agree_evalNext hr i rest env h (some inner)).bind fun resumed => last feed resumed

end

theorem agree_evaluate (hr : B.Runners run run') (e : Expr) (scope : Scope) :
    B.Agree i (Render.evaluate run e scope) (Render.evaluate run' e scope) :=
  agree_eval hr i e.code _

end Bond

end Stencil
