import Stencil.Render.Call
import Stencil.Render.Names
import Stencil.Value.Arithmetic

/-!
# Evaluation

The value of a term in an environment. Operands are evaluated from left to right and only as far as
they are needed. A list of a comprehension is made at once; a comprehension that is an argument is
made step by step, as its items are asked for.
-/

namespace Stencil

open Number

namespace Render

variable (run : Runner)

/-! ## Relations -/

/-- Whether a quantity is one of the integers of a range. -/
def rangeHolds (start stop step : Int) : Quantity → Bool
  | .int n => Value.inRange start stop step n
  | .float x =>
    match truncate? x with
    | some n => compareInt n x == some .eq && Value.inRange start stop step n
    | none => false

/-- Whether a container holds a value. What an iterator gives before it is used up. -/
def holds (container item : Value) : Render Bool :=
  match container with
  | .dict _ entries =>
    if item.isKey then pure (Value.find? item entries).isSome else throw .wrongType
  | .view _ .keys _ => result (container.hasElement item)
  | .view _ .items _ => result (container.hasElement item)
  | .set .. => result (container.hasElement item)
  | .range _ start stop step => pure (item.quantity?.any (rangeHolds start stop step))
  | .iterator _ id => do
    -- what comes behind the item is left to take
    let found ← findPull run (fun v => pure (if v.alike item then some () else none)) pullLimit
      (.iterator id)
    return found.isSome
  | container =>
    match container.string?, item.string?, container.contents? with
    | some s, some part, _ => pure (Text.occursIn part.toList s.toList)
    | some _, none, _ => throw .wrongType
    | none, _, some items => pure (item.isAmong items)
    | none, _, none => throw .wrongType

/-- Whether two values stand in a relation. -/
def relate (op : CompareOp) (a b : Value) : Render Bool :=
  match op with
  | .eq => result (a.equality b)
  | .ne => do return !(← result (a.equality b))
  | .same => pure (a.identical b)
  | .notSame => pure !a.identical b
  | .isIn => holds run b a
  | .notIn => do return !(← holds run b a)
  | op => result (Value.ordered op a b)

/-! ## Operators -/

/-- Whether taking things away from the first value, or the second value from something, is done on
sets. -/
def areSets : Value → Value → Bool
  | .view _ .values _, _ => false
  | _, .view _ .values _ => false
  | .view .., _ => true
  | _, .view .. => true
  | .set .., .set .. => true
  | _, _ => false

/-- An operand that is repeated: its items are going to be in the result more than once. -/
def repeatable (v : Value) : Render Value :=
  match v with
  | .list .. => settle v
  | .tuple .. => settle v
  | v => pure v

/-- The result of an arithmetic operator. -/
def operate (op : BinaryOp) (a b : Value) : Render Value := do
  match op with
  | .mul => result (Value.binary .mul (← repeatable a) (← repeatable b))
  | .sub =>
    if areSets a b then
      let items ← drain run a
      result (Value.difference a items (← drain run b))
    else result (Value.binary .sub a b)
  | op => result (Value.binary op a b)

/-- The result of a term that is a constant if its parts are. -/
def fixed (env : Env) (isConstant : Bool) (v : Value) : Value :=
  if isConstant then v.asConstant env.place else v

/-! ## Terms -/

mutual

/-- The value of a term. -/
def eval : Term → Env → Render Value
  | .lit value, env => pure ((Constant.ofLit value).toValue env.place)
  | .name id, env => lookup env id
  | .tuple items, env => do
    return fixed env (Term.areFixed items) (.ofTuple (← evalAll items env))
  | .list items, env => do return .ofList (← evalAll items env)
  | .dict entries, env => do result (Value.ofEntries (← evalEntries entries env))
  | .member subject name, env => do result ((← eval subject env).member name)
  | .index subject key, env => do
    let v ← eval subject env
    let item ← result (v.valueAt (← eval key env))
    return fixed env (subject.isFixed && key.isFixed) item
  | .slice subject low high, env => do
    let v ← eval subject env
    let low ← evalBound low env
    result (v.slice low (← evalBound high env))
  | .slices subject parts, env => do
    let _ ← eval subject env
    let _ ← evalAll parts env
    throw .wrongType
  | .call function arguments, env => do
    let f ← eval function env
    call run f (← evalAll arguments env) []
  | .unary op operand, env => do
    return fixed env operand.isFixed (← result (Value.unary op (← eval operand env)))
  | .binary op left right, env => do
    let a ← eval left env
    let b ← eval right env
    let v ← operate run op a b
    return fixed env (left.isFixed && right.isFixed && Value.isFolded op a b) v
  | .compare first rest, env => do evalChain rest (← eval first env) env
  | .and left right, env => do
    let a ← eval left env
    if a.truth then eval right env else return a
  | .or left right, env => do
    let a ← eval left env
    if a.truth then return a else eval right env
  | .choose condition yes no, env => do
    if (← eval condition env).truth then eval yes env else eval no env
  | .listOf item clauses, env => do
    let inner := env.enter (← newFrame (Clause.names clauses))
    return .ofList (← evalClauses clauses env inner (eval item inner) []).reverse
  | .generator item clauses, env => do
    let feed ← evalSource clauses env
    let inner := env.enter (← newFrame (Clause.names clauses))
    newIterator .generated (.suspended item clauses inner [feed])

/-- The values of terms, from left to right. -/
def evalAll : List Term → Env → Render (List Value)
  | [], _ => pure []
  | t :: rest, env => do
    let v ← eval t env
    return v :: (← evalAll rest env)

/-- The values of the entries of a dict, each key before its value. -/
def evalEntries : List (Term × Term) → Env → Render (List (Value × Value))
  | [], _ => pure []
  | (k, t) :: rest, env => do
    let key ← eval k env
    let v ← eval t env
    return (key, v) :: (← evalEntries rest env)

/-- The value of a bound that may be missing. -/
def evalBound : Option Term → Env → Render Value
  | none, _ => pure .none
  | some t, env => eval t env

/-- The result of a chain of comparisons that goes on from a value. It ends with the first that
does not hold. -/
def evalChain : List (CompareOp × Term) → Value → Env → Render Value
  | [], _, _ => pure (.bool true)
  | (op, t) :: rest, left, env => do
    let right ← eval t env
    if ← relate run op left right then evalChain rest right env else return .bool false

/-- Whether all conditions are true. -/
def evalConditions : List Term → Env → Render Bool
  | [], _ => pure true
  | t :: rest, env => do
    if (← eval t env).truth then evalConditions rest env else return false

/-- Where the values of the first loop of a comprehension come from. -/
def evalSource : List Clause → Env → Render Feed
  | [], _ => pure (.items [])
  | .mk _ source _ :: _, env => do result (Feed.of? (← eval source env))

/-- What a comprehension gives, in reverse and in front of what it gave before. The source of its
first loop is evaluated outside of it. -/
def evalClauses : List Clause → Env → Env → Render Value → List Value → Render (List Value)
  | [], _, _, item, acc => do return (← item) :: acc
  | .mk target source conditions :: rest, outer, inner, item, acc => do
    fold run
      (fun acc v => do
        bindTarget run inner.own target v
        if ← evalConditions conditions inner then evalClauses rest inner inner item acc
        else return acc)
      acc (← eval source outer)

/-- The next item of a comprehension, and where its loops stand then. They are given as they stood
when the last item was made; `none` is for loops that have yet to begin. -/
def evalNext : List Clause → Env → Render Value → Option (List Feed) →
    Render (Option (Value × List Feed))
  | [], _, item, none => do return some (← item, [])
  | [], _, _, some _ => pure none
  | .mk target source conditions :: rest, env, item, loops => do
    let feed ←
      match loops with
      | none => do result (Feed.of? (← eval source env))
      | some [] => pure (.items [])
      | some (feed :: _) => pure feed
    -- the loops inside go on first; this one moves when they have ended
    let resumed ←
      match loops with
      | some (_ :: inner) => evalNext rest env item (some inner)
      | _ => pure none
    match resumed with
    | some (v, inner) => return some (v, feed :: inner)
    | none =>
      let found ← findPull run
        (fun v => do
          bindTarget run env.own target v
          if ← evalConditions conditions env then evalNext rest env item none
          else return none)
        pullLimit feed
      return found.map fun ((v, inner), feed) => (v, feed :: inner)

end

/-- The value of an expression. -/
def evaluate (e : Expr) (scope : Scope) : Render Value :=
  eval run e.code { place := e.place, context := scope }

end Render

end Stencil
