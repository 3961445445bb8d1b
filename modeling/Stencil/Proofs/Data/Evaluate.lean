import Stencil.Proofs.Data.Calls

/-!
# Evaluating with data

Where names stand for data, expressions come to data, and evaluating them writes nothing. The proof
goes by recursion on terms and the lists in them, like evaluation itself.
-/

namespace Stencil

namespace Render

variable {k f : Nat} {run : Runner}

/-! ## Relations and operators -/

theorem quiet_holds (hr : run.TakesData k f) {container : Value} (h : container.IsData k)
    (item : Value) : Quiet k f (fun _ => True) (holds run container item) := by
  unfold holds
  split
  · exact Writes.ite _ (Quiet.pure trivial) (Writes.throw _)
  · exact Quiet.result fun _ _ => trivial
  · exact Quiet.result fun _ _ => trivial
  · exact Quiet.result fun _ _ => trivial
  · exact Quiet.pure trivial
  · next id =>
    have hid : (Feed.iterator id).IsData k := by
      cases h
      assumption
    refine (quiet_findPull hr (P := fun _ => True) (fun _ => ?_) _ hid).map fun _ _ => trivial
    exact Quiet.pure fun _ _ => trivial
  · split
    · exact Quiet.pure trivial
    · exact Writes.throw _
    · exact Quiet.pure trivial
    · exact Writes.throw _

theorem quiet_relate (hr : run.TakesData k f) (op : CompareOp) (a : Value) {b : Value}
    (h : b.IsData k) : Quiet k f (fun _ => True) (relate run op a b) := by
  unfold relate
  split
  · exact Quiet.result fun _ _ => trivial
  · exact (Quiet.result fun _ _ => trivial).map fun _ _ => trivial
  · exact Quiet.pure trivial
  · exact Quiet.pure trivial
  · exact quiet_holds hr h a
  · exact (quiet_holds hr h a).map fun _ _ => trivial
  · exact Quiet.result fun _ _ => trivial

theorem quiet_repeatable {v : Value} (h : v.IsData k) :
    Quiet k f (·.IsData k) (repeatable v) := by
  unfold repeatable
  split
  · exact Quiet.settle h
  · exact Quiet.settle h
  · exact Quiet.pure h

theorem quiet_operate (hr : run.TakesData k f) (op : BinaryOp) {a b : Value} (ha : a.IsData k)
    (hb : b.IsData k) : Quiet k f (·.IsData k) (operate run op a b) := by
  unfold operate
  split
  · refine (quiet_repeatable ha).then fun a ha => (quiet_repeatable hb).then fun b hb => ?_
    exact Quiet.result (Value.isData_binary .mul ha hb)
  · refine Writes.ite _ ?_ (Quiet.result (Value.isData_binary .sub ha hb))
    refine (quiet_drain hr ha).then fun items hitems => ?_
    refine (quiet_drain hr hb).then fun others _ => ?_
    exact Quiet.result (Value.isData_difference a hitems others)
  · exact Quiet.result (Value.isData_binary _ ha hb)

theorem isData_fixed (env : Env) (isConstant : Bool) {v : Value} (h : v.IsData k) :
    (fixed env isConstant v).IsData k := by
  unfold fixed
  split
  · exact Value.isData_asConstant _ h
  · exact h

/-! ## Terms -/

theorem Env.isData_enter {env : Env} (h : env.IsData k f) {frame : Frame} (hframe : f ≤ frame.id) :
    (env.enter frame).IsData k f :=
  ⟨h.context, List.forall_mem_cons.mpr ⟨hframe, h.frames⟩⟩

/-- What the next item of a comprehension is: data, and loops over data. -/
abbrev NextData (k : Nat) (found : Option (Value × List Feed)) : Prop :=
  IfAny (fun p => p.1.IsData k ∧ ∀ feed ∈ p.2, feed.IsData k) found

mutual

theorem quiet_eval (hr : run.TakesData k f) :
    ∀ (t : Term) {env : Env}, env.IsData k f → Quiet k f (·.IsData k) (eval run t env)
  | .lit value, env, _ => by
    unfold eval
    exact Quiet.pure (Value.isData_toValue _ _)
  | .name id, env, h => by
    unfold eval
    exact quiet_lookup h id
  | .tuple items, env, h => by
    unfold eval
    exact (quiet_evalAll hr items h).map fun _ hitems => isData_fixed _ _ (.tuple _ hitems)
  | .list items, env, h => by
    unfold eval
    exact (quiet_evalAll hr items h).map fun _ hitems => .list _ hitems
  | .dict entries, env, h => by
    unfold eval
    exact (quiet_evalEntries hr entries h).then fun _ hentries =>
      Quiet.result (Value.isData_ofEntries hentries)
  | .member subject name, env, h => by
    unfold eval
    exact (quiet_eval hr subject h).then fun _ hv => Quiet.result (Value.isData_member hv name)
  | .index subject key, env, h => by
    unfold eval
    exact (quiet_eval hr subject h).then fun _ hv => (quiet_eval hr key h).then fun key _ =>
      (Quiet.result (Value.isData_valueAt hv key)).map fun _ hitem => isData_fixed _ _ hitem
  | .slice subject low high, env, h => by
    unfold eval
    exact (quiet_eval hr subject h).then fun _ hv => (quiet_evalBound hr low h).then fun low _ =>
      (quiet_evalBound hr high h).then fun high _ =>
        Quiet.result (Value.isData_slice hv low high)
  | .slices subject parts, env, h => by
    unfold eval
    exact (quiet_eval hr subject h).then fun _ _ => (quiet_evalAll hr parts h).then fun _ _ =>
      Writes.throw _
  | .call function arguments, env, h => by
    unfold eval
    exact (quiet_eval hr function h).then fun _ hg =>
      (quiet_evalAll hr arguments h).then fun _ hvalues => quiet_call hr hg hvalues
  | .unary op operand, env, h => by
    unfold eval
    exact (quiet_eval hr operand h).then fun _ hv =>
      (Quiet.result (Value.isData_unary op hv)).map fun _ hv => isData_fixed _ _ hv
  | .binary op left right, env, h => by
    unfold eval
    exact (quiet_eval hr left h).then fun _ ha => (quiet_eval hr right h).then fun _ hb =>
      (quiet_operate hr op ha hb).map fun _ hv => isData_fixed _ _ hv
  | .compare first rest, env, h => by
    unfold eval
    exact (quiet_eval hr first h).then fun v _ => quiet_evalChain hr rest v h
  | .and left right, env, h => by
    unfold eval
    exact (quiet_eval hr left h).then fun _ ha =>
      Writes.ite _ (quiet_eval hr right h) (Quiet.pure ha)
  | .or left right, env, h => by
    unfold eval
    exact (quiet_eval hr left h).then fun _ ha =>
      Writes.ite _ (Quiet.pure ha) (quiet_eval hr right h)
  | .choose condition yes no, env, h => by
    unfold eval
    exact (quiet_eval hr condition h).then fun _ _ =>
      Writes.ite _ (quiet_eval hr yes h) (quiet_eval hr no h)
  | .listOf item clauses, env, h => by
    unfold eval
    exact (Quiet.newFrame _).then fun frame hframe =>
      (quiet_evalClauses hr clauses h (Env.isData_enter h hframe)
        (quiet_eval hr item (Env.isData_enter h hframe)) .nil).map fun items hitems =>
          .list _ (hitems.subset (List.reverse_subset.mpr (List.Subset.refl _)))
  | .generator item clauses, env, h => by
    unfold eval
    refine (quiet_evalSource hr clauses h).then fun feed hfeed => ?_
    refine (Quiet.newFrame _).then fun frame hframe => ?_
    have hcursor : Cursor.IsData k f (.suspended item clauses (env.enter frame) [feed]) :=
      ⟨Env.isData_enter h hframe, List.forall_mem_singleton.mpr hfeed⟩
    exact Quiet.newIterator _ hcursor

theorem quiet_evalAll (hr : run.TakesData k f) :
    ∀ (ts : List Term) {env : Env}, env.IsData k f → Quiet k f (AreData k) (evalAll run ts env)
  | [], env, _ => by
    unfold evalAll
    exact Quiet.pure .nil
  | t :: rest, env, h => by
    unfold evalAll
    exact (quiet_eval hr t h).then fun _ hv =>
      (quiet_evalAll hr rest h).map fun _ hrest => .cons hv hrest

theorem quiet_evalEntries (hr : run.TakesData k f) :
    ∀ (entries : List (Term × Term)) {env : Env}, env.IsData k f →
      Quiet k f (EntriesData k) (evalEntries run entries env)
  | [], env, _ => by
    unfold evalEntries
    exact Quiet.pure .nil
  | (key, t) :: rest, env, h => by
    unfold evalEntries
    exact (quiet_eval hr key h).then fun _ hkey => (quiet_eval hr t h).then fun _ hv =>
      (quiet_evalEntries hr rest h).map fun _ hrest => .cons hkey hv hrest

theorem quiet_evalBound (hr : run.TakesData k f) :
    ∀ (t : Option Term) {env : Env}, env.IsData k f →
      Quiet k f (·.IsData k) (evalBound run t env)
  | none, env, _ => by
    unfold evalBound
    exact Quiet.pure .none
  | some t, env, h => by
    unfold evalBound
    exact quiet_eval hr t h

theorem quiet_evalChain (hr : run.TakesData k f) :
    ∀ (rest : List (CompareOp × Term)) (left : Value) {env : Env}, env.IsData k f →
      Quiet k f (·.IsData k) (evalChain run rest left env)
  | [], left, env, _ => by
    unfold evalChain
    exact Quiet.pure (.bool true)
  | (op, t) :: rest, left, env, h => by
    unfold evalChain
    exact (quiet_eval hr t h).then fun right hright => (quiet_relate hr op left hright).then
      fun _ _ => Writes.ite _ (quiet_evalChain hr rest right h) (Quiet.pure (.bool false))

theorem quiet_evalConditions (hr : run.TakesData k f) :
    ∀ (ts : List Term) {env : Env}, env.IsData k f →
      Quiet k f (fun _ => True) (evalConditions run ts env)
  | [], env, _ => by
    unfold evalConditions
    exact Quiet.pure trivial
  | t :: rest, env, h => by
    unfold evalConditions
    exact (quiet_eval hr t h).then fun _ _ =>
      Writes.ite _ (quiet_evalConditions hr rest h) (Quiet.pure trivial)

theorem quiet_evalSource (hr : run.TakesData k f) :
    ∀ (clauses : List Clause) {env : Env}, env.IsData k f →
      Quiet k f (·.IsData k) (evalSource run clauses env)
  | [], env, _ => by
    unfold evalSource
    exact Quiet.pure Feed.isData_empty
  | .mk _ source _ :: _, env, h => by
    unfold evalSource
    exact (quiet_eval hr source h).then fun _ hv => Quiet.result fun _ => Feed.isData_of? hv

theorem quiet_evalClauses (hr : run.TakesData k f) :
    ∀ (clauses : List Clause) {outer inner : Env}, outer.IsData k f → inner.IsData k f →
      ∀ {item : Render Value}, Quiet k f (·.IsData k) item → ∀ {acc : List Value}, AreData k acc →
        Quiet k f (AreData k) (evalClauses run clauses outer inner item acc)
  | [], _, _, _, _, _, hitem, _, hacc => by
    unfold evalClauses
    exact hitem.map fun _ hv => .cons hv hacc
  | .mk target source conditions :: rest, _, inner, houter, hinner, _, hitem, _, hacc => by
    unfold evalClauses
    exact (quiet_eval hr source houter).then fun v hv =>
      writes_fold hr .nothing (fun {acc} _ hacc hitem' =>
        (quiet_bindTarget hr inner.own target hitem').then fun _ _ =>
          (quiet_evalConditions hr conditions hinner).then fun _ _ =>
            Writes.ite _ (quiet_evalClauses hr rest hinner hinner hitem hacc) (Quiet.pure hacc))
        hv hacc

theorem quiet_evalNext (hr : run.TakesData k f) :
    ∀ (clauses : List Clause) {env : Env}, env.IsData k f →
      ∀ {item : Render Value}, Quiet k f (·.IsData k) item →
      ∀ {loops : Option (List Feed)}, IfAny (fun feeds => ∀ feed ∈ feeds, feed.IsData k) loops →
        Quiet k f (NextData k) (evalNext run clauses env item loops)
  | [], _, _, _, hitem, none, _ => by
    unfold evalNext
    exact hitem.map fun _ hv => .some ⟨hv, List.forall_mem_nil _⟩
  | [], _, _, _, _, some _, _ => by
    unfold evalNext
    exact Quiet.pure .none
  | .mk target source conditions :: rest, env, h, item, hitem, loops, hloops => by
    -- What is left to do once the feed of the loop is known and its body was resumed.
    have last : ∀ {feed : Feed}, feed.IsData k → ∀ {resumed : Option (Value × List Feed)},
        NextData k resumed → Quiet k f (NextData k)
          (match resumed with
            | some (v, inner) => return some (v, feed :: inner)
            | none => do
              let found ← findPull run (fun v => do
                bindTarget run env.own target v
                if ← evalConditions run conditions env then
                  evalNext run rest env item none
                else return none) pullLimit feed
              return found.map fun ((v, inner), feed) => (v, feed :: inner) :
                Render (Option (Value × List Feed))) := by
      intro feed hfeed resumed hresumed
      cases resumed with
      | some p =>
        obtain ⟨hv, hinner⟩ := hresumed p rfl
        exact Quiet.pure (.some ⟨hv, List.forall_mem_cons.mpr ⟨hfeed, hinner⟩⟩)
      | none =>
        refine (quiet_findPull hr (fun hv => (quiet_bindTarget hr env.own target hv).then fun _ _ =>
          (quiet_evalConditions hr conditions h).then fun _ _ =>
            Writes.ite _ (quiet_evalNext hr rest h hitem .none) (Quiet.pure .none)) _ hfeed).map
              fun _ hfound => hfound.map fun p hp => ?_
        exact ⟨hp.1.1, List.forall_mem_cons.mpr ⟨hp.2, hp.1.2⟩⟩
    unfold evalNext
    match loops, hloops with
    | none, _ =>
      exact (quiet_eval hr source h).then fun v hv =>
        (Quiet.result fun _ => Feed.isData_of? hv).then fun feed hfeed =>
          (Quiet.pure (Q := NextData k) .none).then fun resumed hresumed => last hfeed hresumed
    | some [], _ =>
      exact (Quiet.pure Feed.isData_empty).then fun feed hfeed =>
        (Quiet.pure (Q := NextData k) .none).then fun resumed hresumed => last hfeed hresumed
    | some (feed :: inner), hloops =>
      obtain ⟨hfeed, hinner⟩ := List.forall_mem_cons.mp (hloops _ rfl)
      exact (Quiet.pure hfeed).then fun feed hfeed =>
        (quiet_evalNext hr rest h hitem (.some hinner)).then fun resumed hresumed =>
          last hfeed hresumed

end

/-- **An expression over data** comes to data, and evaluating it writes nothing. -/
theorem quiet_evaluate (hr : run.TakesData k f) (e : Expr) {scope : Scope}
    (h : ScopeData k scope) : Quiet k f (·.IsData k) (evaluate run e scope) :=
  quiet_eval hr e.code ⟨h, List.forall_mem_nil _⟩

/-! ## Runners -/

theorem quiet_resume (hr : run.TakesData k f) (id : Nat) (item : Term) (clauses : List Clause)
    {env : Env} (h : env.IsData k f) {loops : List Feed} (hloops : ∀ feed ∈ loops, feed.IsData k) :
    Quiet k f (IfAny (·.IsData k)) (resume run id item clauses env loops) := by
  have hrunning : Cursor.IsData k f .running := trivial
  have hfinished : Cursor.IsData k f .finished := trivial
  refine (Quiet.store id hrunning).then fun _ _ => ?_
  have hnext := quiet_evalNext hr clauses h (quiet_eval hr item h) (.some hloops)
  refine (hnext.cleanUp (store id .finished)).ifAny ?_ fun (v, loops) ⟨hv, hloops⟩ => ?_
  · exact (Quiet.store id hfinished).then fun _ _ => Quiet.pure .none
  · have hcursor : Cursor.IsData k f (.suspended item clauses env loops) := ⟨h, hloops⟩
    exact (Quiet.store id hcursor).then fun _ _ => Quiet.pure (.some hv)

theorem quiet_next (hr : run.TakesData k f) {id : Nat} (h : k ≤ id) :
    Quiet k f (IfAny (·.IsData k)) (next run id) := by
  refine Writes.get fun w hw => ?_
  split
  · exact Quiet.pure .none
  · next hcursor =>
    obtain ⟨henv, hloops⟩ := hw.cursors h hcursor
    exact quiet_resume hr id _ _ henv hloops
  · exact Writes.throw _
  · next cursor _ _ hcursor => exact quiet_advance hr id (hw.cursors h hcursor)

/-- **What is taken from new iterators is data**, however deep they are nested. -/
theorem performWithin_takesData (n : Nat) : (performWithin n).TakesData k f := by
  induction n with
  | zero => exact fun _ _ => Writes.throw _
  | succ n ih => exact fun _ h => quiet_next ih h

end Render

end Stencil
