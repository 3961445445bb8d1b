import Stencil.Proofs.Order.Merge
import Stencil.Proofs.Shape.Generate
import Stencil.Proofs.Shape.Read
import Stencil.Template

/-!
# Raw output

Output that is not escaped is written where a template asks for it with the word for it, and nowhere
else. The operations that write it are followed from the characters of the source over the tree and
the plan to the merged plan.
-/

namespace Stencil

/-! ## Raw expressions -/

/-- The expression that the operation writes as it is. -/
def Op.raw? : Op → Option Expr
  | .raw e => some e
  | _ => none

/-- The expression of a raw text. -/
def Node.raw? : Node → Option Expr
  | .text (.dynamic e true) _ => some e
  | _ => none

/-- The expression that the act writes as it is. -/
def Act.raw? : Act → Option Expr
  | .raw e => some e
  | _ => none

/-- The expressions that a plan writes as they are, at all depths. -/
def rawExprs (plan : Plan) : List Expr :=
  (walkPlan plan).filterMap Op.raw?

/-- The expressions of the raw texts of a tree, in document order. -/
def rawTexts (nodes : List Node) : List Expr :=
  (walk nodes).filterMap Node.raw?

theorem mem_rawExprs {plan : Plan} {e : Expr} : e ∈ rawExprs plan ↔ .raw e ∈ walkPlan plan := by
  constructor
  · intro h
    obtain ⟨op, hop, hraw⟩ := List.mem_filterMap.mp h
    unfold Op.raw? at hraw
    split at hraw <;> cases hraw
    exact hop
  · intro h
    exact List.mem_filterMap.mpr ⟨_, h, rfl⟩

/-! ## Raw output is an act -/

theorem Op.bind_raw? (op : Op) : op.act?.bind Act.raw? = op.raw? := by
  cases op with
  | escaped e inAttribute => cases inAttribute <;> rfl
  | _ => rfl

theorem Node.bind_raw? (n : Node) : n.act?.bind Act.raw? = n.raw? := by
  cases n with
  | text content place =>
    cases content with
    | dynamic e isRaw => cases isRaw <;> rfl
    | _ => rfl
  | _ => rfl

theorem Act.raw?_prune (act : Act) : act.prune.raw? = act.raw? := by
  cases act <;> rfl

theorem filterMap_acts (plan : Plan) : (acts plan).filterMap Act.raw? = rawExprs plan := by
  rw [acts, List.filterMap_filterMap]
  exact List.filterMap_congr fun op _ => op.bind_raw?

theorem filterMap_treeActs (nodes : List Node) :
    (treeActs nodes).filterMap Act.raw? = rawTexts nodes := by
  rw [treeActs, List.filterMap_filterMap]
  exact List.filterMap_congr fun n _ => n.bind_raw?

/-! ## From the source to the plan -/

/-- A tree that is formed has raw texts only if there is a reason for them. -/
theorem rawTexts_of_formed {raw : Prop} (h : ¬ raw) {nodes : List Node}
    (hnodes : Formed raw nodes) : rawTexts nodes = [] := by
  rw [rawTexts, List.filterMap_eq_nil_iff]
  intro n hn
  have hfits := (hnodes.formed n hn).fits
  unfold Node.raw?
  split
  · next e place => exact absurd (hfits rfl) h
  · rfl

theorem rawTexts_check {r : Schema.Registry} {nodes tree : List Node}
    (h : r.check nodes = .ok tree) : rawTexts tree = rawTexts nodes := by
  rw [← filterMap_treeActs, ← filterMap_treeActs, (Schema.Registry.acts_check h).1]

theorem rawExprs_nodes {r : Schema.Registry} {nodes tree : List Node} {plan : Plan}
    (hcheck : r.check nodes = .ok tree) (hplan : Generate.nodes tree = .ok plan) :
    rawExprs plan = rawTexts tree := by
  rw [← filterMap_acts, ← filterMap_treeActs,
    Generate.acts_nodes tree (Schema.Registry.acts_check hcheck).2 hplan]

theorem rawExprs_merge (plan : Plan) : (rawExprs plan.merge).Sublist (rawExprs plan) := by
  have hmerge := plan.acts_merge.filterMap Act.raw?
  rw [List.filterMap_map, filterMap_acts] at hmerge
  rw [← filterMap_acts plan]
  convert hmerge using 1
  exact List.filterMap_congr fun act _ => act.raw?_prune.symm

namespace Template

/-- What a compiled template comes from: the tree that was read, the same tree accepted, and its
plan before merging. -/
theorem compile_eq_ok {r r' : Schema.Registry} {dialect : Dialect} {source name : String}
    {verbose : Bool} {t : Template}
    (h : compile r dialect source name verbose = (r', .ok t)) :
    ∃ nodes plan, Source.read dialect source = .ok nodes ∧ r.check nodes = .ok t.tree ∧
      Generate.nodes t.tree = .ok plan ∧ t.plan = plan.merge := by
  unfold compile at h
  split at h
  · cases h
  next nodes hread =>
  split at h
  · cases h
  next tree hcheck =>
  split at h
  · cases h
  next plan hplan =>
  cases h
  obtain ⟨generated, hgenerated, hmerge⟩ := bind_eq_ok.mp hplan
  exact ⟨nodes, generated, hread, hcheck, hgenerated, (pure_eq_ok.mp hmerge).symm⟩

/-- **Output is raw only by the word for it.** A compiled template whose source does not have the
word has no raw output, at any depth of its plan. The raw output of any plan before merging is that
of the accepted tree, one for one and in document order, and merging leaves some of it in the same
order. -/
theorem raw_by_word :
    (∀ r r' dialect source name verbose t,
        compile r dialect source name verbose = (r', .ok t) →
          ¬ Source.rawWord <:+: source.toList → ∀ e, .raw e ∉ walkPlan t.plan) ∧
      (∀ (r : Schema.Registry) nodes tree plan, r.check nodes = .ok tree →
        Generate.nodes tree = .ok plan →
          rawExprs plan = rawTexts tree ∧ rawTexts tree = rawTexts nodes) ∧
      ∀ plan : Plan, (rawExprs plan.merge).Sublist (rawExprs plan) := by
  refine ⟨fun r r' dialect source name verbose t hcompile hword e he => ?_,
    fun r nodes tree plan hcheck hplan =>
      ⟨rawExprs_nodes hcheck hplan, rawTexts_check hcheck⟩, rawExprs_merge⟩
  obtain ⟨nodes, plan, hread, hcheck, hplan, hmerge⟩ := compile_eq_ok hcompile
  have hformed := (Source.lands_readChars dialect source.toList).1 nodes hread
  have hnone : rawExprs plan = [] := by
    rw [rawExprs_nodes hcheck hplan, rawTexts_check hcheck, rawTexts_of_formed hword hformed]
  have hmem := (rawExprs_merge plan).subset (mem_rawExprs.mpr (hmerge ▸ he))
  rw [hnone] at hmem
  cases hmem

/-- An item with escaped output, and one with raw output beside it. -/
def items (raw : Bool) : Schema.Registry × Except CompileError Template :=
  compile .builtin .maud (if raw then "li { (x) @raw(y) }" else "li { (x) (y) }") "items" false

theorem raw_by_word_items :
    (∃ t, (items false).2 = .ok t ∧ ∀ e, .raw e ∉ walkPlan t.plan) ∧
      ∃ t plan, (items true).2 = .ok t ∧ Generate.nodes t.tree = .ok plan ∧
        rawExprs plan = rawTexts t.tree ∧ (rawExprs plan).map Expr.source = ["y"] ∧
          (rawExprs plan.merge).Sublist (rawExprs plan) := by
  have hescaped : (items false).2.toOption.isSome ∧
      ¬ Source.rawWord <:+: "li { (x) (y) }".toList := by
    decide +kernel
  have hraw : ((items true).2.toOption.map fun t => (rawTexts t.tree).map Expr.source) =
      some ["y"] := by
    decide +kernel
  constructor
  · rcases hitems : items false with ⟨r', e | t⟩
    · rw [hitems] at hescaped
      cases hescaped.1
    · exact ⟨t, rfl, raw_by_word.1 _ r' _ _ _ _ t hitems hescaped.2⟩
  · rcases hitems : items true with ⟨r', e | t⟩
    · rw [hitems] at hraw
      cases hraw
    · rw [hitems] at hraw
      obtain ⟨nodes, plan, -, hcheck, hplan, -⟩ := compile_eq_ok hitems
      obtain ⟨hexprs, -⟩ := raw_by_word.2.1 _ nodes t.tree plan hcheck hplan
      refine ⟨t, plan, rfl, hplan, hexprs, ?_, raw_by_word.2.2 plan⟩
      rw [hexprs]
      exact Option.some.inj hraw

end Template

end Stencil
