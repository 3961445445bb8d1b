import Stencil.Proofs.Steps
import Stencil.Render.Execute
import Mathlib.Data.List.Induction

/-!
# Arguments of components

The arguments of a component are evaluated one after the other, all in the scope of the call, and
only then collected. Evaluating one may change the world for the next, so what they come to is said
step by step: `Gives` for the forms that an argument has, `Evaluated` for a list of arguments. What
is collected (`Arguments.collect`) has each name once, in the place of the first argument of this
name and with the value of the last one.

A value that is bound to a name is settled first. Settling only fills in marks that are fresh
(`Value.unmarked_settle`), and does nothing to a value that was settled before.
-/

namespace Stencil

/-! ## Collected arguments -/

namespace Value

theorem named_eq_none {name : String} {members : List (String × Value)} :
    named? name members = Option.none ↔ name ∉ members.map Prod.fst := by
  induction members with
  | nil => simp [named?]
  | cons m rest ih =>
    obtain ⟨n, v⟩ := m
    by_cases hn : n = name
    · simp [named?, hn]
    · simp [named?, hn, ih, Ne.symm hn]

theorem named_insert_self (name : String) (v : Value) (given : Arguments) :
    named? name (given.insert name v) = some v := by
  induction given with
  | nil => simp [Arguments.insert, named?]
  | cons argument rest ih =>
    obtain ⟨n, w⟩ := argument
    by_cases hn : n = name
    · simp [Arguments.insert, named?, hn]
    · simp [Arguments.insert, named?, hn, ih]

theorem named_insert_ne {name other : String} (hne : other ≠ name) (v : Value)
    (given : Arguments) : named? name (given.insert other v) = named? name given := by
  induction given with
  | nil => simp [Arguments.insert, named?, hne]
  | cons argument rest ih =>
    obtain ⟨n, w⟩ := argument
    by_cases hn : n = other
    · simp [Arguments.insert, named?, hn, hne]
    · simp [Arguments.insert, named?, hn, ih]

end Value

namespace Arguments

/-- A new name is added at the end, one that is there stays where it is. -/
theorem map_insert (name : String) (v : Value) (given : Arguments) :
    (given.insert name v).map Prod.fst =
      given.map Prod.fst ++ if name ∈ given.map Prod.fst then [] else [name] := by
  induction given with
  | nil => simp [insert]
  | cons argument rest ih =>
    obtain ⟨n, w⟩ := argument
    by_cases hn : n = name
    · simp [insert, hn]
    · have hmem : name ∈ n :: rest.map Prod.fst ↔ name ∈ rest.map Prod.fst := by
        simp [Ne.symm hn]
      simp only [insert, if_neg hn, List.map_cons, ih, hmem, List.cons_append]

/-- Arguments with more of them, which come one after the other. -/
def insertAll (done : Arguments) (values : List (String × Value)) : Arguments :=
  values.foldl (fun given argument => given.insert argument.1 argument.2) done

theorem named_insertAll {name : String} {values : List (String × Value)}
    (h : name ∉ values.map Prod.fst) (done : Arguments) :
    Value.named? name (done.insertAll values) = Value.named? name done := by
  induction values generalizing done with
  | nil => rfl
  | cons argument rest ih =>
    obtain ⟨hne, hrest⟩ := List.ne_and_not_mem_of_not_mem_cons h
    exact (ih hrest _).trans (Value.named_insert_ne (Ne.symm hne) ..)

/-- Arguments that come one after the other. -/
def collect (values : List (String × Value)) : Arguments :=
  insertAll [] values

variable (values : List (String × Value))

theorem collect_concat (name : String) (v : Value) :
    collect (values ++ [(name, v)]) = (collect values).insert name v := by
  rw [collect, insertAll, List.foldl_append]
  rfl

/-- The names come in the order in which each of them comes first. -/
theorem map_collect : (collect values).map Prod.fst = (values.map Prod.fst).eraseDups := by
  induction values using List.reverseRecOn with
  | nil => rfl
  | append_singleton values argument ih =>
    obtain ⟨name, v⟩ := argument
    rw [collect_concat, map_insert, ih, List.map_append, List.eraseDups_append]
    by_cases hname : name ∈ values.map Prod.fst
    · simp [List.removeAll, hname]
    · simp [List.removeAll, hname, List.eraseDups_cons]

theorem nodup_collect : ((collect values).map Prod.fst).Nodup := by
  induction values using List.reverseRecOn with
  | nil => exact List.nodup_nil
  | append_singleton values argument ih =>
    obtain ⟨name, v⟩ := argument
    rw [collect_concat, map_insert]
    split
    · simpa using ih
    · next hname =>
      refine List.nodup_append.mpr ⟨ih, List.pairwise_singleton _ _, fun n hn other hother => ?_⟩
      rw [List.mem_singleton.mp hother]
      exact fun heq => hname (heq ▸ hn)

/-- The value of a name is that of the last argument of this name. -/
theorem named_collect (name : String) :
    Value.named? name (collect values) = Value.named? name values.reverse := by
  induction values using List.reverseRecOn with
  | nil => rfl
  | append_singleton values argument ih =>
    obtain ⟨other, v⟩ := argument
    rw [collect_concat, List.reverse_concat]
    by_cases hne : other = name
    · rw [hne, Value.named_insert_self, Value.named?, if_pos rfl]
    · rw [Value.named_insert_ne hne, ih, Value.named?, if_neg hne]

end Arguments

/-! ## Settled values -/

namespace Value

mutual

/-- A value without what tells it apart from its equals. -/
def unmarked : Value → Value
  | .int _ n => .int .fresh n
  | .float _ x => .float .fresh x
  | .str _ s => .str .fresh s
  | .list _ items => .list .fresh (unmarkedAll items)
  | .tuple _ items => .tuple .fresh (unmarkedAll items)
  | .dict _ entries => .dict .fresh (unmarkedEntries entries)
  | .view _ shape entries => .view .fresh shape (unmarkedEntries entries)
  | .set _ items => .set .fresh (unmarkedAll items)
  | .range _ start stop step => .range .fresh start stop step
  | .object _ members => .object .fresh (unmarkedMembers members)
  | .record _ label tupled fields more =>
    .record .fresh label tupled (unmarkedMembers fields) (unmarkedMembers more)
  | .raw _ _ markup => .raw .fresh .fresh markup
  | .rendered _ markup => .rendered .fresh markup
  | .derived _ scalar text => .derived .fresh scalar text
  | .template _ t => .template .fresh t
  | .lazy _ action => .lazy .fresh action
  | .method _ subject m => .method .fresh subject.unmarked m
  | v => v

/-- Values without what tells them apart from their equals. -/
def unmarkedAll : List Value → List Value
  | [] => []
  | v :: rest => v.unmarked :: unmarkedAll rest

/-- Entries of a dict without what tells them apart from their equals. -/
def unmarkedEntries : List (Value × Value) → List (Value × Value)
  | [] => []
  | (k, v) :: rest => (k.unmarked, v.unmarked) :: unmarkedEntries rest

/-- Named values without what tells them apart from their equals. -/
def unmarkedMembers : List (String × Value) → List (String × Value)
  | [] => []
  | (name, v) :: rest => (name, v.unmarked) :: unmarkedMembers rest

end

mutual

/-- **Settling changes nothing but marks.** -/
theorem unmarked_settle (v : Value) (id : Nat) : (v.settle id).1.unmarked = v.unmarked := by
  match v with
  | .none | .bool _ | .iterator .. | .component _ | .builtin _ | .kind _ | .output =>
    simp [settle]
  | .int m _ | .float m _ | .str m _ | .range m .. | .raw m .. | .rendered m _ | .derived m ..
  | .template m _ | .lazy m _ => cases m <;> simp [settle, unmarked]
  | .list m items | .tuple m items | .set m items =>
    cases m <;> simp [settle, unmarked, unmarked_settleAll items]
  | .dict m entries | .view m _ entries =>
    cases m <;> simp [settle, unmarked, unmarked_settleEntries entries]
  | .object m members => cases m <;> simp [settle, unmarked, unmarked_settleMembers members]
  | .record m _ _ fields more =>
    cases m <;> simp [settle, unmarked, unmarked_settleMembers fields, unmarked_settleMembers more]
  | .method m subject _ => cases m <;> simp [settle, unmarked, unmarked_settle subject]

theorem unmarked_settleAll (values : List Value) (id : Nat) :
    unmarkedAll (settleAll values id).1 = unmarkedAll values := by
  match values with
  | [] => simp [settleAll]
  | v :: rest => simp [settleAll, unmarkedAll, unmarked_settle v, unmarked_settleAll rest]

theorem unmarked_settleEntries (entries : List (Value × Value)) (id : Nat) :
    unmarkedEntries (settleEntries entries id).1 = unmarkedEntries entries := by
  match entries with
  | [] => simp [settleEntries]
  | (k, v) :: rest =>
    simp [settleEntries, unmarkedEntries, unmarked_settle k, unmarked_settle v,
      unmarked_settleEntries rest]

theorem unmarked_settleMembers (members : List (String × Value)) (id : Nat) :
    unmarkedMembers (settleMembers members id).1 = unmarkedMembers members := by
  match members with
  | [] => simp [settleMembers]
  | (name, v) :: rest =>
    simp [settleMembers, unmarkedMembers, unmarked_settle v, unmarked_settleMembers rest]

end

/-- A settled value is settled for good. -/
theorem settle_settle (v : Value) (id id' : Nat) :
    (v.settle id).1.settle id' = ((v.settle id).1, id') := by
  cases v with
  | none | bool | iterator | component | builtin | kind | output => simp [settle]
  | int m | float m | str m | range m | raw m | rendered m | derived m | template m | lazy m | list m
  | tuple m | set m | dict m | view m | object m | record m | method m =>
    cases m <;> simp [settle]

end Value

/-! ## Evaluation -/

namespace Render

mutual

/-- An argument, evaluated in a scope and in a world, comes to a value and leaves a world: a text is
itself, an expression is its value, a toggle is the truth of its value, and parts are joined. -/
inductive Gives (run : Runner) (scope : Scope) : Content → World → Value → World → Prop
  | literal (text : String) (w : World) : Gives run scope (.literal text) w (.ofString text) w
  | dynamic {e : Expr} {w w' : World} {v : Value} (raw : Bool)
      (h : evaluate run e scope w = (.ok v, w')) : Gives run scope (.dynamic e raw) w v w'
  | toggle {e : Expr} {w w' : World} {v : Value} (h : evaluate run e scope w = (.ok v, w')) :
      Gives run scope (.toggle e) w (.bool v.truth) w'
  | joined {parts : List Content} {w w' : World} {texts : List String}
      (h : GivesTexts run scope parts w texts w') :
      Gives run scope (.joined parts) w (.ofString (Generate.joinTexts texts)) w'

/-- The parts of an argument, evaluated one after the other, come to texts. -/
inductive GivesTexts (run : Runner) (scope : Scope) :
    List Content → World → List String → World → Prop
  | nil (w : World) : GivesTexts run scope [] w [] w
  | cons {part : Content} {rest : List Content} {w w₁ w' : World} {v : Value} {text : String}
      {texts : List String} (hv : Gives run scope part w v w₁) (htext : v.written = .ok text)
      (h : GivesTexts run scope rest w₁ texts w') :
      GivesTexts run scope (part :: rest) w (text :: texts) w'

end

mutual

/-- An argument, evaluated in a scope and in a world, fails for the reason that an expression in it
fails, or that a value in it has no text, after those before it were evaluated. -/
inductive Faults (run : Runner) (scope : Scope) : Content → World → Fault → World → Prop
  | dynamic {e : Expr} {w w' : World} {x : Fault} (raw : Bool)
      (h : evaluate run e scope w = (.error x, w')) : Faults run scope (.dynamic e raw) w x w'
  | toggle {e : Expr} {w w' : World} {x : Fault} (h : evaluate run e scope w = (.error x, w')) :
      Faults run scope (.toggle e) w x w'
  | joined {parts : List Content} {w w' : World} {x : Fault}
      (h : FaultsTexts run scope parts w x w') : Faults run scope (.joined parts) w x w'
  | unknown (w : World) : Faults run scope .unknown w (.unknownContent .unknown) w

/-- A part of an argument fails, after those before it came to texts. -/
inductive FaultsTexts (run : Runner) (scope : Scope) :
    List Content → World → Fault → World → Prop
  | here {part : Content} {rest : List Content} {w w' : World} {x : Fault}
      (h : Faults run scope part w x w') : FaultsTexts run scope (part :: rest) w x w'
  | text {part : Content} {rest : List Content} {w w' : World} {v : Value} {x : Fault}
      (hv : Gives run scope part w v w') (h : v.written = .error x) :
      FaultsTexts run scope (part :: rest) w x w'
  | later {part : Content} {rest : List Content} {w w₁ w' : World} {v : Value} {text : String}
      {x : Fault} (hv : Gives run scope part w v w₁) (htext : v.written = .ok text)
      (h : FaultsTexts run scope rest w₁ x w') : FaultsTexts run scope (part :: rest) w x w'

end

/-- Arguments are evaluated one after the other, each once, and each value is settled. -/
inductive Evaluated (run : Runner) (scope : Scope) :
    List (String × Content) → World → List (String × Value) → World → Prop
  | nil (w : World) : Evaluated run scope [] w [] w
  | cons {name : String} {content : Content} {rest : List (String × Content)} {w w₁ w' : World}
      {v : Value} {values : List (String × Value)} (hv : Gives run scope content w v w₁)
      (h : Evaluated run scope rest { w₁ with nextId := (v.settle w₁.nextId).2 } values w') :
      Evaluated run scope ((name, content) :: rest) w
        ((name, (v.settle w₁.nextId).1) :: values) w'

variable {run : Runner} {scope : Scope}

theorem Evaluated.map_eq {contents : List (String × Content)} {w w' : World}
    {values : List (String × Value)} (h : Evaluated run scope contents w values w') :
    values.map Prod.fst = contents.map Prod.fst := by
  induction h with
  | nil => rfl
  | cons _ _ ih => exact congrArg _ ih

/-- The first of the arguments that fails, after those before it were evaluated. -/
def FirstFault (run : Runner) (scope : Scope) (contents : List (String × Content)) (w : World)
    (x : Fault) (w' : World) : Prop :=
  ∃ before name content after values v, contents = before ++ (name, content) :: after ∧
    Evaluated run scope before w values v ∧ Faults run scope content v x w'

theorem FirstFault.here {name : String} {content : Content} {rest : List (String × Content)}
    {w w' : World} {x : Fault} (h : Faults run scope content w x w') :
    FirstFault run scope ((name, content) :: rest) w x w' :=
  ⟨[], name, content, rest, [], w, rfl, .nil w, h⟩

theorem FirstFault.later {name : String} {content : Content} {rest : List (String × Content)}
    {w w₁ w' : World} {v : Value} {x : Fault} (hv : Gives run scope content w v w₁)
    (h : FirstFault run scope rest { w₁ with nextId := (v.settle w₁.nextId).2 } x w') :
    FirstFault run scope ((name, content) :: rest) w x w' := by
  obtain ⟨before, other, failing, after, values, u, rfl, hbefore, hfault⟩ := h
  exact ⟨_ :: before, other, failing, after, _ :: values, u, rfl, .cons hv hbefore, hfault⟩

/-! ### Each outcome is one of these -/

theorem evaluate_outcome (run : Runner) (e : Expr) (scope : Scope) (w : World) :
    (∃ v w', evaluate run e scope w = (.ok v, w')) ∨
      ∃ x w', evaluate run e scope w = (.error x, w') := by
  rcases evaluate run e scope w with ⟨x | v, w'⟩
  · exact .inr ⟨x, w', rfl⟩
  · exact .inl ⟨v, w', rfl⟩

mutual

theorem argument_outcome (c : Content) (w : World) :
    (∃ v w', Gives run scope c w v w' ∧ argument run c scope w = (.ok v, w')) ∨
      ∃ x w', Faults run scope c w x w' ∧ argument run c scope w = (.error x, w') := by
  match c with
  | .literal text =>
    rw [argument]
    exact .inl ⟨_, w, .literal text w, rfl⟩
  | .dynamic e raw =>
    rw [argument]
    rcases evaluate_outcome run e scope w with ⟨v, w', h⟩ | ⟨x, w', h⟩
    · exact .inl ⟨v, w', .dynamic raw h, h⟩
    · exact .inr ⟨x, w', .dynamic raw h, h⟩
  | .toggle e =>
    rw [argument, bind_apply]
    rcases evaluate_outcome run e scope w with ⟨v, w', h⟩ | ⟨x, w', h⟩ <;> rw [h]
    · exact .inl ⟨_, w', .toggle h, rfl⟩
    · exact .inr ⟨x, w', .toggle h, rfl⟩
  | .joined parts =>
    rw [argument, bind_apply]
    rcases argumentTexts_outcome parts w with ⟨texts, w', htexts, h⟩ | ⟨x, w', hfault, h⟩ <;> rw [h]
    · exact .inl ⟨_, w', .joined htexts, rfl⟩
    · exact .inr ⟨x, w', .joined hfault, rfl⟩
  | .unknown =>
    rw [argument]
    exact .inr ⟨_, w, .unknown w, rfl⟩

theorem argumentTexts_outcome (parts : List Content) (w : World) :
    (∃ texts w', GivesTexts run scope parts w texts w' ∧
        argumentTexts run parts scope w = (.ok texts, w')) ∨
      ∃ x w', FaultsTexts run scope parts w x w' ∧
        argumentTexts run parts scope w = (.error x, w') := by
  match parts with
  | [] =>
    rw [argumentTexts]
    exact .inl ⟨[], w, .nil w, rfl⟩
  | part :: rest =>
    rw [argumentTexts, bind_apply]
    rcases argument_outcome part w with ⟨v, w₁, hv, h⟩ | ⟨x, w', hfault, h⟩ <;> rw [h]
    · dsimp only
      rw [bind_apply, result_apply]
      cases htext : v.written with
      | error x => exact .inr ⟨x, w₁, .text hv htext, rfl⟩
      | ok text =>
        dsimp only
        rw [bind_apply]
        rcases argumentTexts_outcome rest w₁ with ⟨texts, w', hrest, h⟩ | ⟨x, w', hfault, h⟩ <;>
          rw [h]
        · exact .inl ⟨_, w', .cons hv htext hrest, rfl⟩
        · exact .inr ⟨x, w', .later hv htext hfault, rfl⟩
    · exact .inr ⟨x, w', .here hfault, rfl⟩

end

/-- **Arguments are evaluated in order until one fails.** If none does, they are collected. -/
theorem arguments_outcome (contents : List (String × Content)) (done : Arguments) (w : World) :
    (∃ values w', Evaluated run scope contents w values w' ∧
        arguments run scope contents done w = (.ok (done.insertAll values), w')) ∨
      ∃ x w', FirstFault run scope contents w x w' ∧
        arguments run scope contents done w = (.error x, w') := by
  induction contents generalizing done w with
  | nil =>
    rw [arguments]
    exact .inl ⟨[], w, .nil w, rfl⟩
  | cons argument rest ih =>
    obtain ⟨name, content⟩ := argument
    rw [arguments, bind_apply]
    rcases argument_outcome content w with ⟨v, w₁, hv, h⟩ | ⟨x, w', hfault, h⟩ <;> rw [h]
    · rcases ih (done.insert name (v.settle w₁.nextId).1)
        { w₁ with nextId := (v.settle w₁.nextId).2 } with
        ⟨values, w', hrest, h⟩ | ⟨x, w', hfault, h⟩
      · exact .inl ⟨_, w', .cons hv hrest, h⟩
      · exact .inr ⟨x, w', .later hv hfault, h⟩
    · exact .inr ⟨x, w', .here hfault, rfl⟩

end Render

end Stencil
