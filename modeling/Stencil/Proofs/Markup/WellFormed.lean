import Stencil.Proofs.Grammar.TreeNames
import Stencil.Proofs.Markup.Marks
import Stencil.Proofs.Markup.Written

/-!
# Output is well-formed

Whatever data a compiled template is rendered with, its text is well-formed markup: no value can
open, close or break a tag.
-/

namespace Stencil

open Schema

/-- Plain data: values that hold nothing but themselves and other plain data. -/
inductive Value.IsPlain : Value → Prop
  | none : IsPlain .none
  | bool (b : Bool) : IsPlain (.bool b)
  | int (m : Mark) (n : Int) : IsPlain (.int m n)
  | float (m : Mark) (x : Float) : IsPlain (.float m x)
  | str (m : Mark) (s : String) : IsPlain (.str m s)
  | list (m : Mark) {items : List Value} (h : ∀ v ∈ items, v.IsPlain) : IsPlain (.list m items)
  | tuple (m : Mark) {items : List Value} (h : ∀ v ∈ items, v.IsPlain) : IsPlain (.tuple m items)
  | dict (m : Mark) {entries : List (Value × Value)} (hk : ∀ e ∈ entries, e.1.IsPlain)
      (hv : ∀ e ∈ entries, e.2.IsPlain) : IsPlain (.dict m entries)

/-- Plain data are data, whatever iterators there are. -/
theorem Value.IsPlain.isData {v : Value} (h : v.IsPlain) (k : Nat) : v.IsData k := by
  induction h with
  | none => exact .none
  | bool b => exact .bool b
  | int m n => exact .int m n
  | float m x => exact .float m x
  | str m s => exact .str m s
  | list m _ ih => exact .list m ih
  | tuple m _ ih => exact .tuple m ih
  | dict m _ _ ihk ihv => exact .dict m ihk ihv

/-- Seen from itself, every world is one of data: nothing in it is new. -/
theorem World.isData_self (w : World) : w.IsData w.cursors.size w.frames.size where
  cursors hid hc := absurd (Array.getElem?_eq_some_iff.mp hc).1 (by omega)
  frames hid hvalues := absurd (Array.getElem?_eq_some_iff.mp hvalues).1 (by omega)
  oldCursors := Nat.le_refl _
  oldFrames := Nat.le_refl _

namespace Render

variable {k f : Nat}

theorem text_onFreshBuffer {L : String → Prop} {Q : Unit → Prop} {m : Render Unit}
    (h : Writes k f L Q m) {w v : World} (hw : w.IsData k f) {out : String}
    (hrun : onFreshBuffer m w = (.ok out, v)) : L out := by
  have start : World.IsData k f { w with buffer := {} } := { hw with }
  have hrun : ((m >>= fun _ => contents) { w with buffer := {} }).1 = .ok out :=
    congrArg Prod.fst hrun
  rw [bind_apply] at hrun
  split at hrun
  · next u hm =>
    obtain ⟨-, -, text, htext, hgrown⟩ := h start hm
    rw [contents_apply] at hrun
    split at hrun
    · next written b hwritten =>
      cases hrun
      unfold Buffer.contents at hwritten
      split at hwritten
      · cases hwritten
      split at hwritten <;> cases hwritten
      rw [hgrown]
      simpa using htext
    · cases hrun
  · cases hrun

/-- A template that is rendered with data writes a text that its plan spells. -/
theorem writes_perform (n : Nat) {t : Template} (ht : t.plan.IsEscaped) {context : Scope}
    (h : ScopeData k context) :
    Writes k f (fun text => spellsPlan t.plan text) (fun _ => True)
      ((performWithin n).perform (.bound t context)) := by
  cases n with
  | zero => exact Writes.throw _
  | succ n => exact (writes_execPlan (performWithin_takesData n) t.plan ht h).within

end Render

namespace Template

/-- Calling the method `render` of a template gives the text of the template. -/
theorem call_render (m place : Mark) (t : Template) (context : Arguments) :
    Render.call Render.runner (.method m (.template place t) .render) [] context =
      (do return .rendered .fresh (← Render.templateText t context)) :=
  rfl

/-- What the plan of a compiled template spells is well-formed, if there is neither trusted markup
nor a component in its tree. -/
theorem isWellFormed_spelled {r r' : Registry} {dialect : Dialect} {source name : String}
    {verbose : Bool} {t : Template}
    (hcompile : Template.compile r dialect source name verbose = (r', .ok t))
    (htree : ∀ n ∈ walk t.tree, n.isEscaped) :
    t.plan.IsEscaped ∧ ∀ text, spellsPlan t.plan text → Markup.IsWellFormed r.isVoid text := by
  unfold compile at hcompile
  split at hcompile
  · cases hcompile
  next nodes hread =>
  split at hcompile
  · cases hcompile
  next tree hcheck =>
  split at hcompile
  · cases hcompile
  next plan hplan =>
  cases hcompile
  obtain ⟨generated, hgenerated, hmerge⟩ := bind_eq_ok.mp hplan
  rw [pure_eq_ok] at hmerge
  subst hmerge
  obtain ⟨hwalk, hmarked⟩ := r.walk_check hcheck
  refine ⟨Plan.isEscaped_merge (Generate.isEscaped_nodes tree htree hgenerated),
    fun text htext => ?_⟩
  -- marking keeps the names, which can stand in tags since they were read
  refine Generate.scan_nodes tree (fun n hn => ⟨?_, hmarked n hn, htree n hn⟩) hgenerated
    (Plan.spells_merge htext) []
  rw [hwalk] at hn
  obtain ⟨m, hm, rfl⟩ := List.mem_map.mp hn
  exact (r.hasNames_markNode m).mpr (haveNames_read hread m hm)

/-- The names that the paragraph looks up, with a quote and the start of a tag as their values. -/
def paragraphContext : Scope :=
  [("t", .ofString "\""), ("x", .ofString "<p>")]

/-- A paragraph with an attribute and a text that are looked up. -/
def paragraph : Except CompileError Template :=
  (compile .builtin .rsx "<p title={t}>{x}<br/></p>" "paragraph" false).2

end Template

end Stencil
