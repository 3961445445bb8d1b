import Stencil.Proofs.Data.Values

/-!
# What is done with data gives data

One lemma for every function on values that an expression can come to. Faults do not matter: data
are what a function gives if it gives anything.
-/

namespace Stencil.Value

variable {k : Nat}

/-! ## Settling -/

mutual

theorem isData_settle (v : Value) (h : v.IsData k) (id : Nat) : (v.settle id).1.IsData k :=
  match v with
  | .none | .bool _ | .iterator .. | .builtin _ => by
    rw [settle]
    · exact h
    all_goals nofun
  | .int m n => by cases m <;> exact .int _ n
  | .float m x => by cases m <;> exact .float _ x
  | .str m s => by cases m <;> exact .str _ s
  | .range m start stop step => by cases m <;> exact .range _ start stop step
  | .list m items => by
    have hitems := areData_settleAll items (IsData.list_iff.mp h) id
    cases m
    case fresh => exact .list _ hitems
    all_goals exact h
  | .tuple m items => by
    have hitems := areData_settleAll items (IsData.tuple_iff.mp h) id
    cases m
    case fresh => exact .tuple _ hitems
    all_goals exact h
  | .set m items => by
    have hitems := areData_settleAll items (IsData.set_iff.mp h) id
    cases m
    case fresh => exact .set _ hitems
    all_goals exact h
  | .dict m entries => by
    have hentries := entriesData_settleEntries entries (IsData.dict_iff.mp h) id
    cases m
    case fresh => exact IsData.dict_iff.mpr hentries
    all_goals exact h
  | .view m shape entries => by
    have hentries := entriesData_settleEntries entries (IsData.view_iff.mp h) id
    cases m
    case fresh => exact IsData.view_iff.mpr hentries
    all_goals exact h
  | .method m subject f => by
    obtain ⟨hf, hsubject⟩ : f.isPlain ∧ subject.IsData k := by
      cases h
      exact ⟨‹_›, ‹_›⟩
    have hsettled := isData_settle subject hsubject id
    cases m
    case fresh => exact .method _ hf hsettled
    all_goals exact h

theorem areData_settleAll (items : List Value) (h : AreData k items) (id : Nat) :
    AreData k (settleAll items id).1 :=
  match items with
  | [] => .nil
  | v :: rest => by
    obtain ⟨hv, hrest⟩ := List.forall_mem_cons.mp h
    exact .cons (isData_settle v hv id) (areData_settleAll rest hrest _)

theorem entriesData_settleEntries (entries : List (Value × Value)) (h : EntriesData k entries)
    (id : Nat) : EntriesData k (settleEntries entries id).1 :=
  match entries with
  | [] => .nil
  | (key, v) :: rest => by
    obtain ⟨⟨hkey, hv⟩, hrest⟩ := List.forall_mem_cons.mp h
    exact .cons (isData_settle key hkey id) (isData_settle v hv _)
      (entriesData_settleEntries rest hrest _)

end

/-! ## Containers -/

theorem areData_characters (s : String) : AreData k (characters s) := by
  intro v hv
  obtain ⟨c, -, rfl⟩ := List.mem_map.mp hv
  exact isData_ofPiece _

theorem areData_viewItems (shape : ViewKind) {entries : List (Value × Value)}
    (h : EntriesData k entries) : AreData k (viewItems shape entries) := by
  intro v hv
  cases shape with
  | keys =>
    obtain ⟨e, he, rfl⟩ := List.mem_map.mp hv
    exact (h e he).1
  | values =>
    obtain ⟨e, he, rfl⟩ := List.mem_map.mp hv
    exact (h e he).2
  | items =>
    obtain ⟨e, he, rfl⟩ := List.mem_map.mp hv
    exact .tuple _ (AreData.cons (h e he).1 (AreData.cons (h e he).2 .nil))

theorem areData_contents {v : Value} (h : v.IsData k) {items : List Value}
    (hitems : v.contents? = some items) : AreData k items := by
  unfold contents? at hitems
  split at hitems
  · cases hitems
    exact IsData.list_iff.mp h
  · cases hitems
    exact IsData.tuple_iff.mp h
  · cases hitems
    intro key hkey
    obtain ⟨e, he, rfl⟩ := List.mem_map.mp hkey
    exact (IsData.dict_iff.mp h e he).1
  · cases hitems
    exact areData_viewItems _ (IsData.view_iff.mp h)
  · cases hitems
    exact IsData.set_iff.mp h
  · obtain ⟨s, -, rfl⟩ := Option.map_eq_some_iff.mp hitems
    exact areData_characters s

theorem isData_find {key : Value} {entries : List (Value × Value)} (h : EntriesData k entries)
    {v : Value} (hv : find? key entries = some v) : v.IsData k := by
  induction entries with
  | nil => cases hv
  | cons e rest ih =>
    obtain ⟨he, hrest⟩ := List.forall_mem_cons.mp h
    unfold find? at hv
    split at hv
    · cases hv
      exact he.2
    · exact ih hrest hv

theorem isData_named {name : String} {scope : Scope} (h : ScopeData k scope) {v : Value}
    (hv : named? name scope = some v) : v.IsData k := by
  induction scope with
  | nil => cases hv
  | cons b rest ih =>
    obtain ⟨hb, hrest⟩ := List.forall_mem_cons.mp h
    unfold named? at hv
    split at hv
    · cases hv
      exact hb
    · exact ih hrest hv

theorem isData_itemAt {items : List Value} (h : AreData k items) (index : Int) :
    GivesData k (itemAt items index) := by
  unfold itemAt
  split
  · next item hitem =>
    obtain ⟨place, -, hitem⟩ := Option.bind_eq_some_iff.mp hitem
    exact .ok (h item (List.mem_of_getElem? hitem))
  · exact .error _

theorem isData_valueAt {subject : Value} (h : subject.IsData k) (key : Value) :
    GivesData k (subject.valueAt key) := by
  unfold valueAt
  split
  · next entries =>
    split
    · split
      · next hfound => exact .ok (isData_find (IsData.dict_iff.mp h) hfound)
      · exact .error _
    · exact .error _
  · exact .error _
  · exact .error _
  · split
    · split
      · exact .ok (isData_ofInt _)
      · exact .error _
    · exact .error _
  · split
    · next hitems _ => exact isData_itemAt (areData_contents h hitems) _
    · exact .error _

theorem between_subset {α : Type} (low high : Nat) (items : List α) :
    between low high items ⊆ items :=
  fun _ h => List.mem_of_mem_take (List.mem_of_mem_drop h)

theorem isData_cut {subject : Value} (h : subject.IsData k) (low high : Nat) (whole : Bool) :
    GivesData k (subject.cut low high whole) := by
  unfold cut
  split
  · exact .ok (.list _ ((IsData.list_iff.mp h : AreData k _).subset (between_subset _ _ _)))
  · exact .ok (.tuple _ ((IsData.tuple_iff.mp h : AreData k _).subset (between_subset _ _ _)))
  · exact .ok (.range _ _ _ _)
  · split
    · split
      · exact .ok (isData_plainString h)
      · exact .ok (isData_ofPiece _)
    · exact .error _

theorem isData_slice {subject : Value} (h : subject.IsData k) (low high : Value) :
    GivesData k (subject.slice low high) :=
  .after fun _ => .after fun _ => .after fun _ => isData_cut h _ _ _

theorem entriesData_insertEntry {key v : Value} (hkey : key.IsData k) (hv : v.IsData k)
    {entries : List (Value × Value)} (h : EntriesData k entries) :
    EntriesData k (insertEntry key v entries) := by
  induction entries with
  | nil => exact .cons hkey hv .nil
  | cons e rest ih =>
    obtain ⟨he, hrest⟩ := List.forall_mem_cons.mp h
    unfold insertEntry
    split
    · exact .cons he.1 hv hrest
    · exact .cons he.1 he.2 (ih hrest)

theorem entriesData_fold {entries done : List (Value × Value)} (h : EntriesData k entries)
    (hdone : EntriesData k done) :
    EntriesData k (entries.foldl (fun done (key, v) => insertEntry key v done) done) := by
  induction entries generalizing done with
  | nil => exact hdone
  | cons e rest ih =>
    obtain ⟨he, hrest⟩ := List.forall_mem_cons.mp h
    exact ih hrest (entriesData_insertEntry he.1 he.2 hdone)

theorem isData_ofEntries {entries : List (Value × Value)} (h : EntriesData k entries) :
    GivesData k (ofEntries entries) := by
  unfold ofEntries
  split
  · exact .ok (IsData.dict_iff.mpr (entriesData_fold h .nil))
  · exact .error _

theorem distinct_subset (seen items : List Value) : distinct seen items ⊆ items := by
  fun_induction distinct seen items with
  | case1 => exact List.Subset.refl _
  | case2 seen v rest _ ih => exact List.subset_cons_of_subset _ ih
  | case3 seen v rest _ ih => exact List.cons_subset_cons _ ih

theorem arranged_subset (slots : Nat) (items : List Value) : arranged slots items ⊆ items := by
  unfold arranged
  split
  · intro v hv
    obtain ⟨p, hp, rfl⟩ := List.mem_map.mp hv
    exact (List.of_mem_zip (List.mem_mergeSort.mp hp)).2
  · exact List.Subset.refl _

theorem isData_difference (source : Value) {items : List Value} (h : AreData k items)
    (others : List Value) : GivesData k (difference source items others) := by
  unfold difference
  split
  · refine .ok (.set _ (h.subset ?_))
    refine List.Subset.trans (arranged_subset _ _) ?_
    exact List.Subset.trans (List.filter_subset_self _) (distinct_subset _ _)
  · exact .error _

theorem isData_toSet (source : Value) {items : List Value} (h : AreData k items) :
    GivesData k (toSet source items) := by
  unfold toSet
  split
  · exact .ok (.set _ (h.subset (List.Subset.trans (arranged_subset _ _) (distinct_subset _ _))))
  · exact .error _

/-! ## Members -/

theorem isPlain_stringMethod {name : String} {m : Method} (h : stringMethod? name = some m) :
    m.isPlain := by
  unfold stringMethod? at h
  split at h <;> cases h <;> rfl

theorem isPlain_dictMethod {name : String} {m : Method} (h : dictMethod? name = some m) :
    m.isPlain := by
  unfold dictMethod? at h
  split at h <;> cases h <;> rfl

theorem isData_member? {v : Value} (h : v.IsData k) {name : String} {m : Value}
    (hm : v.member? name = some m) : m.IsData k := by
  have hmethod : ∀ {method : Option Method}, (∀ f, method = some f → f.isPlain) →
      method.map (Value.method .fresh v ·) = some m → m.IsData k := by
    intro method hplain hm
    obtain ⟨f, hf, rfl⟩ := Option.map_eq_some_iff.mp hm
    exact .method _ (hplain f hf) h
  cases h with
  | dict m hk hv => exact hmethod (fun _ => isPlain_dictMethod) hm
  | str m s => exact hmethod (fun _ => isPlain_stringMethod) hm
  | range m start stop step =>
    unfold member? at hm
    dsimp only at hm
    split at hm <;> cases hm <;> exact .int _ _
  | builtin f =>
    cases f with
    | str =>
      obtain ⟨f, hf, rfl⟩ := Option.map_eq_some_iff.mp hm
      exact .method _ (isPlain_stringMethod hf) (.builtin .str)
    | _ => cases hm
  | _ => cases hm

theorem isData_member {v : Value} (h : v.IsData k) (name : String) :
    GivesData k (v.member name) := by
  unfold member
  split
  · next hm => exact .ok (isData_member? h hm)
  · exact .error _

end Stencil.Value
