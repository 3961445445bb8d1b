import Stencil.Proofs.Reading.Stands
import Stencil.Proofs.Reading.Tokens
import Stencil.Render.Evaluate

/-!
# Constant expressions

Whether an expression is a constant goes by its source as it stands, while its value is that of the
source in parentheses. A source that can be read as it stands means the same in parentheses
(`Term.read_enclosed`), and **evaluating a constant gives the constant** (`eval_constant`), by
induction on the term: literals as they are, signs, tuples, lists and dicts by their parts. Nothing
is changed on the way.

One thing may be looked at: the empty set is a call of `set`, and a scope can hide that name. So a
constant comes to itself where it is unhidden (`Expr.Unhidden`).
-/

namespace Stencil

open Term

/-! ## Reading -/

theorem Term.read_enclosed {cs : List Char} {t t' : Term} (h : read? cs = some t)
    (h' : read? ('(' :: cs ++ ['\n', ')']) = some t') : t = t' := by
  obtain ⟨ts, hts, h⟩ := Option.bind_eq_some_iff.mp h
  obtain ⟨us, hus, h'⟩ := Option.bind_eq_some_iff.mp h'
  obtain ⟨⟨u, _⟩, hp, rfl⟩ := Option.map_eq_some_iff.mp h
  obtain ⟨⟨u', _⟩, hp', rfl⟩ := Option.map_eq_some_iff.mp h'
  exact program_enclosed hp hp' (tokens_enclosed hts hus)

theorem Expr.code_of_constant {e : Expr} {c : Constant} (h : e.constant? = some c) :
    e.code.constant? = some c := by
  obtain ⟨t, ht, hc⟩ := Option.bind_eq_some_iff.mp h
  rw [← Term.read_enclosed ht e.reads]
  exact hc

/-! ## The empty set -/

namespace Term

mutual

/-- Whether a constant term calls `set` anywhere. -/
def callsSet : Term → Bool
  | .tuple items => anyCallsSet items
  | .list items => anyCallsSet items
  | .dict entries => anyEntryCallsSet entries
  | .call function arguments => makesEmptySet function arguments
  | _ => false

/-- Whether one of the terms does. -/
def anyCallsSet : List Term → Bool
  | [] => false
  | t :: rest => t.callsSet || anyCallsSet rest

/-- Whether one of the entries of a dict does. -/
def anyEntryCallsSet : List (Term × Term) → Bool
  | [] => false
  | (k, t) :: rest => k.callsSet || t.callsSet || anyEntryCallsSet rest

end

theorem eq_of_makesEmptySet {function : Term} {arguments : List Term}
    (h : makesEmptySet function arguments = true) : function = .name "set" ∧ arguments = [] := by
  unfold makesEmptySet at h
  split at h
  · exact ⟨congrArg Term.name (beq_iff_eq.mp h), rfl⟩
  · cases h

end Term

/-- No value of the scope goes by the name `set`, if the expression calls that. -/
def Expr.Unhidden (e : Expr) (scope : Scope) : Prop :=
  e.code.callsSet = true → Value.named? "set" scope = none

/-! ## Evaluation -/

namespace Render

variable (run : Runner)

theorem stands_fixed (env : Env) (isConstant : Bool) {v : Value} {c : Constant} (h : v.Stands c) :
    (fixed env isConstant v).Stands c := by
  unfold fixed
  split
  · exact h.asConstant env.place
  · exact h

theorem eval_signed (negative : Bool) {t : Term} {c : Constant} (env : Env)
    (h : t.signedConstant? negative = some c) :
    ∃ v, eval run (.unary (if negative then .minus else .plus) t) env = pure v ∧ v.Stands c := by
  have hlit {value : Lit} {op : UnaryOp} {v : Value} {c : Constant} (hv : v.Stands c)
      (hop : Value.unary op ((Constant.ofLit value).toValue env.place) = .ok v) :
      ∃ v, eval run (.unary op (.lit value)) env = pure v ∧ v.Stands c :=
    ⟨fixed env true v, by rw [eval, eval, pure_bind, hop]; rfl, stands_fixed env true hv⟩
  -- a sign stands in front of an integer or a floating-point number only
  unfold signedConstant? at h
  split at h
  · cases h
    cases negative with
    | false => exact hlit (.int _ _) rfl
    | true => exact hlit (.int .fresh _) rfl
  · cases h
    cases negative with
    | false => exact hlit (.ofFloat env.place _) rfl
    | true =>
      refine hlit (.float (m := .fresh) fun h => ?_) rfl
      cases h
  · cases h

/-- A name that is not hidden is that of the function. -/
theorem lookup_set {scope : Scope} (place : Option Location)
    (h : Value.named? "set" scope = none) :
    lookup { place := place, context := scope } "set" = pure (.builtin .set) := by
  unfold lookup
  rw [lookupFrames, pure_bind]
  dsimp only
  rw [h]
  rfl

theorem eval_emptySet {env : Env} (h : lookup env "set" = pure (.builtin .set)) :
    eval run (.call (.name "set") []) env = pure (.set .fresh []) := by
  rw [eval, eval, h, pure_bind, evalAll, pure_bind]
  rfl

mutual

/-- **Constants evaluate to what they are.** -/
theorem eval_constant : ∀ (t : Term) (c : Constant) (env : Env), t.constant? = some c →
    (t.callsSet = true → lookup env "set" = pure (.builtin .set)) →
    ∃ v, eval run t env = pure v ∧ v.Stands c
  | .lit value, c, env, h, _ => by
    cases h
    exact ⟨_, eval.eq_1 .., Value.stands_toValue env.place _⟩
  | .tuple items, c, env, h, hset => by
    obtain ⟨cs, hcs, rfl⟩ := Option.map_eq_some_iff.mp h
    obtain ⟨vs, hvs, hall⟩ := evalAll_constants items cs env hcs hset
    exact ⟨fixed env (areFixed items) (.ofTuple vs), by rw [eval, hvs, pure_bind],
      stands_fixed env _ (.tuple .fresh hall)⟩
  | .list items, c, env, h, hset => by
    obtain ⟨cs, hcs, rfl⟩ := Option.map_eq_some_iff.mp h
    obtain ⟨vs, hvs, hall⟩ := evalAll_constants items cs env hcs hset
    exact ⟨.ofList vs, by rw [eval, hvs, pure_bind], .list .fresh hall⟩
  | .dict entries, c, env, h, hset => by
    obtain ⟨cs, hcs, h⟩ := Option.bind_eq_some_iff.mp h
    obtain ⟨vs, hvs, hall⟩ := evalEntries_constants entries cs env hcs hset
    obtain ⟨v, hv, hstands⟩ := Value.ofEntries_stands hall h
    exact ⟨v, by rw [eval, hvs, pure_bind, hv]; rfl, hstands⟩
  | .unary op operand, c, env, h, _ => by
    cases op with
    | plus => exact eval_signed run false env h
    | minus => exact eval_signed run true env h
    | not => cases h
  | .call function arguments, c, env, h, hset => by
    rw [Term.constant?] at h
    split at h
    · next hmakes =>
      cases h
      obtain ⟨rfl, rfl⟩ := eq_of_makesEmptySet hmakes
      exact ⟨_, eval_emptySet run (hset hmakes), .emptySet .fresh⟩
    · cases h
  | .name _, _, _, h, _ => by cases h
  | .member .., _, _, h, _ => by cases h
  | .index .., _, _, h, _ => by cases h
  | .slice .., _, _, h, _ => by cases h
  | .slices .., _, _, h, _ => by cases h
  | .binary .., _, _, h, _ => by cases h
  | .compare .., _, _, h, _ => by cases h
  | .and .., _, _, h, _ => by cases h
  | .or .., _, _, h, _ => by cases h
  | .choose .., _, _, h, _ => by cases h
  | .listOf .., _, _, h, _ => by cases h
  | .generator .., _, _, h, _ => by cases h

theorem evalAll_constants : ∀ (ts : List Term) (cs : List Constant) (env : Env),
    constants? ts = some cs →
    (anyCallsSet ts = true → lookup env "set" = pure (.builtin .set)) →
    ∃ vs, evalAll run ts env = pure vs ∧ Value.StandAll vs cs
  | [], cs, env, h, _ => by
    cases h
    exact ⟨[], evalAll.eq_1 .., .nil⟩
  | t :: ts, cs, env, h, hset => by
    obtain ⟨c, hc, h⟩ := Option.bind_eq_some_iff.mp h
    obtain ⟨cs', hcs, h⟩ := Option.bind_eq_some_iff.mp h
    cases h
    simp only [anyCallsSet, Bool.or_eq_true] at hset
    obtain ⟨v, hv, hc⟩ := eval_constant t c env hc fun ht => hset (.inl ht)
    obtain ⟨vs, hvs, hcs⟩ := evalAll_constants ts cs' env hcs fun hts => hset (.inr hts)
    exact ⟨v :: vs, by rw [evalAll, hv, pure_bind, hvs, pure_bind], .cons hc hcs⟩

theorem evalEntries_constants : ∀ (ts : List (Term × Term)) (cs : List (Constant × Constant))
    (env : Env), constantEntries? ts = some cs →
    (anyEntryCallsSet ts = true → lookup env "set" = pure (.builtin .set)) →
    ∃ vs, evalEntries run ts env = pure vs ∧ Value.StandEntries vs cs
  | [], cs, env, h, _ => by
    cases h
    exact ⟨[], evalEntries.eq_1 .., .nil⟩
  | (t, u) :: ts, cs, env, h, hset => by
    obtain ⟨c, hc, h⟩ := Option.bind_eq_some_iff.mp h
    obtain ⟨d, hd, h⟩ := Option.bind_eq_some_iff.mp h
    obtain ⟨cs', hcs, h⟩ := Option.bind_eq_some_iff.mp h
    cases h
    simp only [anyEntryCallsSet, Bool.or_eq_true] at hset
    obtain ⟨v, hv, hc⟩ := eval_constant t c env hc fun ht => hset (.inl (.inl ht))
    obtain ⟨w, hw, hd⟩ := eval_constant u d env hd fun hu => hset (.inl (.inr hu))
    obtain ⟨vs, hvs, hcs⟩ := evalEntries_constants ts cs' env hcs fun hts => hset (.inr hts)
    exact ⟨(v, w) :: vs, by rw [evalEntries, hv, pure_bind, hw, pure_bind, hvs, pure_bind],
      .cons hc hd hcs⟩

end

variable {e : Expr} {c : Constant} {scope : Scope}

theorem evaluate_stands (h : e.constant? = some c) (hset : e.Unhidden scope) :
    ∃ v, evaluate run e scope = pure v ∧ v.Stands c :=
  eval_constant run e.code c _ (Expr.code_of_constant h) fun hcalls =>
    lookup_set e.place (hset hcalls)

/-- **A constant condition is decided by its constant**, where it is unhidden. -/
theorem evaluate_constant (h : e.constant? = some c) (hset : e.Unhidden scope) :
    ∃ v, evaluate run e scope = pure v ∧ v.truth = c.truth := by
  obtain ⟨v, hv, hstands⟩ := evaluate_stands run h hset
  exact ⟨v, hv, hstands.truth⟩

end Render

end Stencil
