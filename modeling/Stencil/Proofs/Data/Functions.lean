import Stencil.Proofs.Data.Operations

/-!
# Operators, functions and methods give data

Operators and the functions and methods that take no values one by one. What they are given is data
as far as their result may hold parts of it.
-/

namespace Stencil

variable {k : Nat}

namespace Value

/-! ## Operators -/

theorem isData_quantity (q : Quantity) : q.toValue.IsData k := by
  cases q with
  | int n => exact isData_ofInt n
  | float x => exact .float _ x

theorem repeated_subset {α : Type} (count : Int) (items : List α) :
    repeated count items ⊆ items := by
  unfold repeated
  split
  · exact List.nil_subset _
  · intro a ha
    obtain ⟨l, hl, ha⟩ := List.mem_flatten.mp ha
    exact List.eq_of_mem_replicate hl ▸ ha

theorem isData_concatenate {a b : Value} (ha : a.IsData k) (hb : b.IsData k) :
    GivesData k (concatenate a b) := by
  unfold concatenate
  split
  · exact .ok (.list _ (AreData.append (IsData.list_iff.mp ha) (IsData.list_iff.mp hb)))
  · split
    · exact .ok hb
    split
    · exact .ok ha
    · exact .ok (.tuple _ (AreData.append (IsData.tuple_iff.mp ha) (IsData.tuple_iff.mp hb)))
  · split
    · split
      · exact .ok (isData_plainString hb)
      split
      · exact .ok (isData_plainString ha)
      · exact .ok (isData_ofString _)
    · exact .error _

theorem isData_replicate (count : Int) {v : Value} (h : v.IsData k) :
    GivesData k (replicate count v) := by
  unfold replicate
  split
  · exact .after fun _ => .ok (.list _ ((IsData.list_iff.mp h).subset (repeated_subset _ _)))
  · exact .after fun _ => .ok (.tuple _ ((IsData.tuple_iff.mp h).subset (repeated_subset _ _)))
  · split
    · refine .guarded fun _ => .after fun _ => ?_
      split
      · exact .ok (isData_plainString h)
      · exact .ok (isData_ofString _)
    · exact .error _

theorem isData_format {subject : Value} (h : subject.IsData k) (text : List Char)
    (arguments : Value) : GivesData k (format subject text arguments) := by
  refine .after fun out => ?_
  split
  · split
    · exact .ok (isData_ofString _)
    · exact .ok h
  · split
    · exact .ite (.ok (.str _ _)) (.ok (isData_ofPiece _))
    · exact .ok (isData_ofPiece _)

theorem isData_applyToSequences (op : BinaryOp) {a b : Value} (ha : a.IsData k) (hb : b.IsData k) :
    GivesData k (applyToSequences op a b) := by
  unfold applyToSequences
  split
  · exact isData_concatenate ha hb
  · split
    · exact isData_replicate _ hb
    · exact isData_replicate _ ha
    · exact .error _
  · split
    · exact isData_format ha _ _
    · exact .error _
  · exact .error _

theorem isData_binary (op : BinaryOp) {a b : Value} (ha : a.IsData k) (hb : b.IsData k) :
    GivesData k (binary op a b) := by
  unfold binary
  split
  · exact .after fun _ => .ok (isData_quantity _)
  · exact isData_applyToSequences op ha hb

theorem isData_plainNumber {v : Value} (h : v.IsData k) : GivesData k v.plainNumber := by
  unfold plainNumber
  split
  · exact .ok h
  · exact .ok h
  · split
    · exact .ok (isData_quantity _)
    · exact .error _

theorem isData_unary (op : UnaryOp) {v : Value} (h : v.IsData k) : GivesData k (unary op v) := by
  unfold unary
  split
  · exact .ok (.bool _)
  · exact isData_plainNumber h
  · exact .ok (isData_ofInt _)
  · exact .ok (.float _ _)
  · exact .error _

theorem isData_magnitude {v : Value} (h : v.IsData k) : GivesData k v.magnitude := by
  unfold magnitude
  split
  · split
    · exact isData_plainNumber h
    · exact .ok (isData_ofInt _)
  · exact .ok (.float _ _)
  · exact .error _

/-! ## Conversions -/

theorem isData_toText (v : Value) : GivesData k v.toText := by
  unfold toText
  split
  · exact .ok (.str _ _)
  · exact .ok (.str _ _)
  · exact .ok (isData_ofString _)
  · exact .ok (.str _ _)
  · exact .after fun _ => .ok (isData_ofString _)

theorem isData_readInteger (base : Nat) (text : String) : GivesData k (readInteger base text) := by
  unfold readInteger
  split
  · exact .ok (isData_ofInt _)
  · exact .error _

theorem isData_toInteger {v : Value} (h : v.IsData k) : GivesData k v.toInteger := by
  unfold toInteger
  split
  · exact isData_plainNumber h
  · exact .after fun _ => .ok (isData_ofInt _)
  · exact isData_readInteger _ _
  · exact .error _

theorem isData_toIntegerIn (v base : Value) : GivesData k (v.toIntegerIn base) := by
  refine .after fun base => .guarded fun _ => ?_
  split
  · exact isData_readInteger _ _
  · exact .error _

theorem isData_toFloating (v : Value) : GivesData k v.toFloating := by
  unfold toFloating
  split
  · exact .ok (.float _ _)
  · exact .after fun _ => .ok (.float _ _)
  · split
    · exact .ok (.float _ _)
    · exact .error _
  · exact .error _

theorem isData_count (v : Value) : GivesData k v.count := by
  unfold count
  split
  · split
    · exact .error _
    · exact .ok (isData_ofInt _)
  · exact .error _

theorem isData_rangeOf (arguments : List Value) : GivesData k (rangeOf arguments) := by
  unfold rangeOf
  split
  · exact .after fun _ => .ok (.range _ _ _ _)
  · exact .after fun _ => .after fun _ => .ok (.range _ _ _ _)
  · exact .after fun _ => .after fun _ => .after fun _ => .guarded fun _ => .ok (.range _ _ _ _)
  · exact .error _

/-! ## Sorting -/

theorem splitRun_subset {falling : Bool} {last : Value} {items : List Value}
    {p : List Value × List Value} (h : splitRun falling last items = .ok p) :
    p.1 ⊆ items ∧ p.2 ⊆ items := by
  induction items generalizing last p with
  | nil =>
    cases h
    exact ⟨List.Subset.refl _, List.Subset.refl _⟩
  | cons v rest ih =>
    unfold splitRun at h
    obtain ⟨less, -, h⟩ := bind_eq_ok.mp h
    split at h
    · obtain ⟨q, hq, h⟩ := bind_eq_ok.mp h
      cases h
      have hq := ih hq
      exact ⟨List.cons_subset_cons _ hq.1, List.subset_cons_of_subset _ hq.2⟩
    · cases h
      exact ⟨List.nil_subset _, List.Subset.refl _⟩

theorem areData_insertSorted {sorted done : Array Value} {v : Value} (h : AreData k sorted.toList)
    (hv : v.IsData k) (hdone : insertSorted sorted v = .ok done) : AreData k done.toList := by
  obtain ⟨place, -, hdone⟩ := bind_eq_ok.mp hdone
  cases hdone
  intro w hw
  rw [Array.insertIdxIfInBounds] at hw
  split at hw
  · rcases Array.mem_insertIdx.mp (Array.mem_toList_iff.mp hw) with rfl | hw
    · exact hv
    · exact h w (Array.mem_toList_iff.mpr hw)
  · exact h w hw

theorem areData_sort {items sorted : List Value} (h : AreData k items)
    (hsorted : sort items = .ok sorted) : AreData k sorted := by
  unfold sort at hsorted
  split at hsorted
  · next a b rest =>
    obtain ⟨falling, -, hsorted⟩ := bind_eq_ok.mp hsorted
    -- the run in front is sorted already, the others are inserted one by one
    obtain ⟨⟨run, others⟩, hsplit, hsorted⟩ := bind_eq_ok.mp hsorted
    obtain ⟨done, hdone, hsorted⟩ := bind_eq_ok.mp hsorted
    cases hsorted
    obtain ⟨ha, hrest⟩ := List.forall_mem_cons.mp h
    obtain ⟨hb, hrest⟩ := List.forall_mem_cons.mp hrest
    have hparts := splitRun_subset hsplit
    have hrun : AreData k (a :: b :: run) := .cons ha (.cons hb (AreData.subset hrest hparts.1))
    have hothers : AreData k others := AreData.subset hrest hparts.2
    refine foldlM_keeps (P := fun sorted : Array Value => AreData k sorted.toList) ?_ ?_ hdone
    · exact fun v hv _ _ hs hdone => areData_insertSorted hs (hothers v hv) hdone
    · split
      · simpa using hrun.subset (List.reverse_subset.mpr (List.Subset.refl _))
      · simpa using hrun
  · cases hsorted
    exact h

end Value

/-! ## Arguments -/

theorem Builtin.areData_inPlace {f : Builtin} {given values : List Value}
    (h : AreData k given) (hvalues : f.inPlace given [] = .ok values) : AreData k values := by
  cases f <;> cases hvalues <;> exact h

theorem Render.isData_sumStart {v : Value} (h : v.IsData k) : (Render.sumStart v).IsData k := by
  unfold Render.sumStart
  split
  · split <;> exact .int _ _
  · exact .float _ _
  · exact h

/-! ## Methods -/

open Value

theorem Value.isData_ofChars (chars : List Char) : (ofChars chars).IsData k := isData_ofString _

theorem Value.isData_keeping {subject : Value} (h : subject.IsData k) (text chars : List Char) :
    (subject.keeping text chars).IsData k := by
  unfold keeping
  split
  · exact isData_plainString h
  · exact isData_ofPiece _

namespace Method

theorem isData_listPieces {subject : Value} (h : subject.IsData k) (text : List Char) (uncut : Bool)
    (found : List (List Char)) : (listPieces subject text uncut found).IsData k := by
  unfold listPieces
  split
  · refine .list _ (AreData.cons ?_ .nil)
    split
    · exact isData_ofPiece _
    · exact isData_keeping h _ _
  · refine .list _ fun v hv => ?_
    obtain ⟨piece, -, rfl⟩ := List.mem_map.mp hv
    exact isData_ofPiece _

theorem isData_pieces {subject : Value} (h : subject.IsData k) (text : List Char)
    (separator : Value) (cuts : Nat) : GivesData k (pieces subject text separator cuts) := by
  unfold pieces
  split
  · exact .ok (isData_listPieces h _ _ _)
  · refine .after fun mark => .guarded fun _ => .ite (.ok ?_) (.ok (isData_listPieces h _ _ _))
    exact .list _ (AreData.cons h .nil)

theorem isData_replaced {subject : Value} (h : subject.IsData k) (text : List Char)
    (old new : Value) (count : Int) : GivesData k (replaced subject text old new count) := by
  refine .after fun before => .after fun after => ?_
  exact .ite (.ok (isData_plainString h)) (.ok (isData_ofChars _))

theorem isData_edge (test : List Char → List Char → Bool) (text : List Char)
    (parts low high : Value) : GivesData k (edge test text parts low high) :=
  .after fun _ => .after fun _ => .after fun _ => .ok (.bool _)

theorem isData_onString (m : Method) {subject : Value} (h : subject.IsData k) (text : List Char)
    (arguments : List Value) : GivesData k (m.onString subject text arguments) := by
  unfold onString
  split
  all_goals first
    | exact .ok (isData_ofChars _)
    | exact .ok (isData_keeping h _ _)
    | exact .after fun _ => .ok (isData_keeping h _ _)
    | exact isData_replaced h _ _ _ _
    | exact .after fun _ => .after fun _ => .after fun _ => isData_replaced h _ _ _ _
    | exact isData_pieces h _ _ _
    | exact .after fun _ => isData_pieces h _ _ _
    | exact isData_edge _ _ _ _ _
    | exact .error _

theorem isData_onDict (m : Method) {entries : List (Value × Value)} (h : EntriesData k entries)
    {arguments : List Value} (harguments : AreData k arguments) :
    GivesData k (m.onDict entries arguments) := by
  have hget : ∀ key {other : Value}, other.IsData k → GivesData k
      (if key.isKey then .ok ((find? key entries).getD other) else .error .wrongType) := by
    intro key other hother
    refine .ite (.ok ?_) (.error _)
    cases hfound : find? key entries with
    | none => exact hother
    | some v => exact isData_find h hfound
  unfold onDict
  dsimp only
  split
  · exact hget _ .none
  · exact hget _ (harguments _ (by simp))
  · exact .ok (IsData.view_iff.mpr h)
  · exact .ok (IsData.view_iff.mpr h)
  · exact .ok (IsData.view_iff.mpr h)
  · exact .error _

theorem isData_joined (mark : List Char) (parts : List Value) :
    GivesData k (joined mark parts) := by
  refine .after fun texts => ?_
  split
  · exact .ok (.str _ _)
  · exact .ok (isData_ofChars _)

end Method

end Stencil
