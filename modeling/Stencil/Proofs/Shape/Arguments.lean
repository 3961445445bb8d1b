import Stencil.Proofs.Order.Merge
import Stencil.Proofs.Shape.Generate
import Stencil.Proofs.Shape.Read
import Stencil.Proofs.Steps
import Stencil.Render.Execute

/-!
# Templates that were read can be run

The trees of all sources are formed. An accepted one has a plan, and when the plan is run, the
arguments of its components are values: only an expression in one of them can fail.
-/

namespace Stencil

/-! ## Texts of values -/

/-- The step fails, if at all, because of a value that is not acceptable. -/
def IsPicky {α : Type} (r : Except Fault α) : Prop :=
  ∀ e, r = .error e → e = .wrongValue

namespace IsPicky

variable {α β : Type}

theorem ok (a : α) : IsPicky (.ok a) :=
  nofun

protected theorem bind {r : Except Fault α} {f : α → Except Fault β} (hr : IsPicky r)
    (hf : ∀ a, IsPicky (f a)) : IsPicky (r >>= f) := by
  cases r with
  | ok a => exact hf a
  | error e =>
    intro e' he
    cases he
    exact hr e rfl

protected theorem map {r : Except Fault α} (hr : IsPicky r) (f : α → β) :
    IsPicky (do return f (← r)) :=
  hr.bind fun a => ok (f a)

end IsPicky

open Number in
theorem isPicky_shownInt (n : Int) : IsPicky (shownInt n) := by
  unfold shownInt
  by_cases hlong : tenTo digitLimit ≤ n.natAbs
  · rw [if_pos hlong]
    exact fun _ he => (Except.error.inj he).symm
  · rw [if_neg hlong]
    exact .ok _

namespace Value

mutual

theorem isPicky_shown (v : Value) : IsPicky v.shown := by
  match v with
  | .none | .bool _ | .float .. | .str .. | .object .. | .raw .. | .rendered .. | .template ..
  | .lazy .. | .component _ | .builtin _ | .kind _ | .output =>
    simp only [shown]
    exact .ok _
  | .iterator source _ =>
    cases source <;> (simp only [shown]; exact .ok _)
  | .int _ n =>
    rw [shown]
    exact isPicky_shownInt n
  | .list _ items =>
    rw [shown]
    exact (isPicky_shownAll items).map _
  | .tuple _ items =>
    rw [shown]
    exact (isPicky_shownAll items).map _
  | .dict _ entries =>
    rw [shown]
    exact (isPicky_shownEntries entries).map _
  | .view _ .keys entries =>
    rw [shown]
    exact (isPicky_shownKeys entries).map _
  | .view _ .values entries =>
    rw [shown]
    exact (isPicky_shownValues entries).map _
  | .view _ .items entries =>
    rw [shown]
    exact (isPicky_shownPairs entries).map _
  | .set _ [] =>
    rw [shown]
    exact .ok _
  | .set _ (first :: items) =>
    rw [shown]
    · exact (isPicky_shownAll (first :: items)).map _
    · nofun
  | .range _ start stop step =>
    rw [shown]
    refine (isPicky_shownInt start).bind fun _ => (isPicky_shownInt stop).bind fun _ => ?_
    split
    · exact .ok _
    · exact (isPicky_shownInt step).map _
  | .record _ label true fields _ =>
    rw [shown]
    exact (isPicky_shownFields fields).map _
  | .record _ label false fields _ =>
    rw [shown]
    exact (isPicky_shownFields fields).map _
  | .derived _ scalar _ =>
    rw [shown]
    cases scalar with
    | int n => exact isPicky_shownInt n
    | float x => exact .ok _
    | str s => exact .ok _
  | .method _ subject m =>
    have hsubject := isPicky_shown subject
    unfold shown
    split
    case h_27 heq =>
      cases heq
      exact .ok _
    case h_28 heq =>
      cases heq
      split
      · split
        · exact .ok _
        · exact hsubject.map _
      · exact .ok _
    all_goals contradiction

theorem isPicky_shownAll (values : List Value) : IsPicky (shownAll values) := by
  match values with
  | [] =>
    rw [shownAll]
    exact .ok _
  | v :: rest =>
    rw [shownAll]
    exact (isPicky_shown v).bind fun _ => (isPicky_shownAll rest).map _

theorem isPicky_shownFields (fields : List (String × Value)) : IsPicky (shownFields fields) := by
  match fields with
  | [] =>
    rw [shownFields]
    exact .ok _
  | (_, v) :: rest =>
    rw [shownFields]
    exact (isPicky_shown v).bind fun _ => (isPicky_shownFields rest).map _

theorem isPicky_shownEntries (entries : List (Value × Value)) : IsPicky (shownEntries entries) := by
  match entries with
  | [] =>
    rw [shownEntries]
    exact .ok _
  | (k, v) :: rest =>
    rw [shownEntries]
    exact (isPicky_shown k).bind fun _ => (isPicky_shown v).bind fun _ =>
      (isPicky_shownEntries rest).map _

theorem isPicky_shownKeys (entries : List (Value × Value)) : IsPicky (shownKeys entries) := by
  match entries with
  | [] =>
    rw [shownKeys]
    exact .ok _
  | (k, _) :: rest =>
    rw [shownKeys]
    exact (isPicky_shown k).bind fun _ => (isPicky_shownKeys rest).map _

theorem isPicky_shownValues (entries : List (Value × Value)) : IsPicky (shownValues entries) := by
  match entries with
  | [] =>
    rw [shownValues]
    exact .ok _
  | (_, v) :: rest =>
    rw [shownValues]
    exact (isPicky_shown v).bind fun _ => (isPicky_shownValues rest).map _

theorem isPicky_shownPairs (entries : List (Value × Value)) : IsPicky (shownPairs entries) := by
  match entries with
  | [] =>
    rw [shownPairs]
    exact .ok _
  | (k, v) :: rest =>
    rw [shownPairs]
    exact (isPicky_shown k).bind fun _ => (isPicky_shown v).bind fun _ =>
      (isPicky_shownPairs rest).map _

end

theorem isPicky_written (v : Value) : IsPicky v.written := by
  unfold written
  split
  · exact .ok _
  · unfold text
    split
    · exact .ok _
    · exact .ok _
    · exact .ok _
    · exact isPicky_shown _

end Value

/-! ## Arguments -/

namespace Render

variable {α β : Type} {run : Runner} {scope : Scope}

/-- A step that fails did so at once, or what follows it failed. -/
theorem error_of_bind {m : Render α} {f : α → Render β} {w : World} {e : Fault}
    (h : ((m >>= f) w).1 = .error e) :
    (m w).1 = .error e ∨ ∃ a v, m w = (.ok a, v) ∧ (f a v).1 = .error e := by
  rw [bind_apply] at h
  rcases hm : m w with ⟨e' | a, v⟩ <;> rw [hm] at h
  · exact .inl (congrArg Except.error (Except.error.inj h))
  · exact .inr ⟨a, v, rfl, h⟩

theorem error_of_result {r : Except Fault α} {w : World} {e : Fault}
    (h : (result r w).1 = .error e) : r = .error e := by
  cases r with
  | ok a => cases h
  | error e' =>
    cases h
    rfl

/-- Some expression fails, in some world, for the reason that something is no value. -/
def FailsIn (run : Runner) (scope : Scope) (exprs : List Expr) (u : Content) : Prop :=
  ∃ e ∈ exprs, ∃ w, (evaluate run e scope w).1 = .error (.unknownContent u)

theorem part_fault {content : Content} (h : content.IsPart) {w : World} {u : Content}
    (hfault : (argument run content scope w).1 = .error (.unknownContent u)) :
    FailsIn run scope (Schema.inspected content) u := by
  cases content with
  | literal text => rw [argument] at hfault; cases hfault
  | dynamic e isRaw =>
    rw [argument] at hfault
    exact ⟨e, List.mem_singleton_self e, w, hfault⟩
  | _ => cases h

theorem parts_fault {parts : List Content} (h : ∀ p ∈ parts, p.IsPart) {w : World} {u : Content}
    (hfault : (argumentTexts run parts scope w).1 = .error (.unknownContent u)) :
    FailsIn run scope (Schema.inspected (.joined parts)) u := by
  induction parts generalizing w with
  | nil => rw [argumentTexts] at hfault; cases hfault
  | cons part rest ih =>
    obtain ⟨hpart, hrest⟩ := List.forall_mem_cons.mp h
    have hfirst : ∀ e ∈ Schema.inspected part, e ∈ Schema.inspected (.joined (part :: rest)) := by
      intro e he
      cases part with
      | dynamic e' isRaw =>
        rw [Schema.inspected, List.mem_singleton] at he
        exact he ▸ List.mem_filterMap.mpr ⟨_, List.mem_cons_self .., rfl⟩
      | literal text => cases he
      | _ => cases hpart
    have hmore : ∀ e ∈ Schema.inspected (.joined rest),
        e ∈ Schema.inspected (.joined (part :: rest)) := by
      intro e he
      obtain ⟨c, hc, hce⟩ := List.mem_filterMap.mp he
      exact List.mem_filterMap.mpr ⟨c, List.mem_cons_of_mem _ hc, hce⟩
    -- the fault is that of the first part, of its text, or of the parts behind it
    rw [argumentTexts] at hfault
    rcases error_of_bind hfault with hfault | ⟨v, w', -, hfault⟩
    · obtain ⟨e, he, hfails⟩ := part_fault hpart hfault
      exact ⟨e, hfirst e he, hfails⟩
    · rcases error_of_bind hfault with hfault | ⟨text, w'', -, hfault⟩
      · -- the text of a value never fails for this reason
        cases Value.isPicky_written v _ (error_of_result hfault)
      · rcases error_of_bind hfault with hfault | ⟨texts, w''', -, hfault⟩
        · obtain ⟨e, he, hfails⟩ := ih hrest hfault
          exact ⟨e, hmore e he, hfails⟩
        · cases hfault

/-- The value of an argument is unknown only if evaluating an expression in it says so. -/
theorem argument_fault {name : String} {content : Content} (h : content.IsValue name) {w : World}
    {u : Content} (hfault : (argument run content scope w).1 = .error (.unknownContent u)) :
    FailsIn run scope (Schema.inspected content) u := by
  cases content with
  | literal text => exact part_fault (show (Content.literal text).IsPart from trivial) hfault
  | dynamic e isRaw => exact part_fault (show (Content.dynamic e isRaw).IsPart from h) hfault
  | toggle e =>
    rw [argument] at hfault
    rcases error_of_bind hfault with hfault | ⟨v, w', -, hfault⟩
    · exact ⟨e, List.mem_singleton_self e, w, hfault⟩
    · cases hfault
  | joined parts =>
    rw [argument] at hfault
    rcases error_of_bind hfault with hfault | ⟨texts, w', -, hfault⟩
    · exact parts_fault h.2.1 hfault
    · cases hfault
  | unknown => cases h

end Render

/-! ## Templates that were read -/

theorem Plan.hasValues_merge {plan : Plan} (h : ∀ op ∈ walkPlan plan, op.HasValues) :
    ∀ op ∈ walkPlan plan.merge, op.HasValues := by
  intro op hop
  cases op with
  | call reference arguments children =>
    have hact : Act.call reference arguments ∈ acts plan.merge :=
      List.mem_filterMap.mpr ⟨_, hop, rfl⟩
    obtain ⟨act, hact, hprune⟩ := List.mem_map.mp ((acts_merge plan).subset hact)
    obtain ⟨op, hop, hask⟩ := List.mem_filterMap.mp hact
    have hvalues := h op hop
    unfold Op.act? at hask
    split at hask <;> cases hask <;> cases hprune
    exact hvalues
  | _ => trivial

/-- **The tree of a source is formed, and from then on nothing is unknown.** If a registry accepts
the tree, it has a plan. No argument of a component in the plan is unknown when it is evaluated,
unless one of its own expressions says so, and the same holds of the plan as it was before merging.
-/
theorem formed_read {dialect : Dialect} {source : String} {nodes : List Node}
    (h : Source.read dialect source = .ok nodes) :
    Formed True nodes ∧
      ∀ (r : Schema.Registry) (tree : List Node), r.check nodes = .ok tree →
        ∃ plan, Generate.nodes tree = .ok plan ∧ Plan.ofTree tree = .ok plan.merge ∧
          ∀ op ∈ walkPlan plan ++ walkPlan plan.merge,
            ∀ reference arguments children, op = .call reference arguments children →
              ∀ a ∈ arguments, ∀ run scope w u,
                (Render.argument run a.2 scope w).1 = .error (.unknownContent u) →
                  Render.FailsIn run scope (Schema.inspected a.2) u := by
  have hformed : Formed (Source.rawWord <:+: source.toList) nodes :=
    (Source.lands_readChars dialect source.toList).1 nodes h
  refine ⟨hformed.mono fun _ => trivial, fun r tree hcheck => ?_⟩
  have hfits := Schema.Registry.fits_check hcheck fun n hn => (hformed.formed n hn).fits
  obtain ⟨plan, hplan⟩ := Generate.exists_nodes tree hfits
  refine ⟨plan, hplan, by rw [Plan.ofTree, hplan]; rfl, ?_⟩
  have hvalues := hasValues_nodes hplan (Schema.Registry.acts_check hcheck).2 hfits
  rintro op hop reference arguments children rfl a ha run scope w u hfault
  have hcall := List.forall_mem_append.mpr ⟨hvalues, Plan.hasValues_merge hvalues⟩ _ hop
  exact Render.argument_fault (hcall a ha) hfault

/-- A card with a class that is joined, inside a loop. -/
def cards : Except SourceError (List Node) :=
  Source.read .maud "@for x in xs { Card.wide.(x) size=(y); }"

/-- The plan of what was read, if it can be checked and compiled. -/
def planOf? : Except SourceError (List Node) → Option Plan
  | .error _ => none
  | .ok nodes =>
    match Schema.Registry.builtin.check nodes with
    | .error _ => none
    | .ok tree => (Generate.nodes tree).toOption

/-- Whether an operation calls a component with two arguments and without children. -/
def isPairCall : Op → Bool
  | .call _ arguments none => arguments.length == 2
  | _ => false

theorem formed_read_cards :
    ∃ nodes tree plan, cards = .ok nodes ∧ Schema.Registry.builtin.check nodes = .ok tree ∧
      Formed True nodes ∧ Generate.nodes tree = .ok plan ∧
        ∃ reference arguments, .call reference arguments none ∈ walkPlan plan ∧
          ∀ a ∈ arguments, ∀ run scope w u,
            (Render.argument run a.2 scope w).1 = .error (.unknownContent u) →
              Render.FailsIn run scope (Schema.inspected a.2) u := by
  have hrun : (planOf? cards).any fun plan => (walkPlan plan).any isPairCall := by decide +kernel
  rcases hread : cards with e | nodes <;> rw [hread] at hrun
  · cases hrun
  rcases hcheck : Schema.Registry.builtin.check nodes with e | tree <;>
    simp only [planOf?, hcheck] at hrun
  · cases hrun
  obtain ⟨hformed, hvalues⟩ := formed_read hread
  obtain ⟨plan, hplan, -, hvalues⟩ := hvalues _ tree hcheck
  rw [hplan] at hrun
  obtain ⟨op, hop, hcall⟩ := List.any_eq_true.mp hrun
  cases op with
  | call reference arguments children =>
    cases children with
    | none =>
      exact ⟨nodes, tree, plan, rfl, hcheck, hformed, hplan, reference, arguments, hop,
        hvalues _ (List.mem_append_left _ hop) _ _ _ rfl⟩
    | some => cases hcall
  | _ => cases hcall

end Stencil
