import Mathlib.Data.List.Chain
import Stencil.Plan.Merge

/-!
# Joining neighbouring texts

The literals of a plan are joined as the texts among nodes are, from behind: a text that says nothing
is dropped, and a text that has another one behind it takes this one in. This is one relation between
a list and what it is joined to, so that all that is to be known of joined lists follows by induction
on it.
-/

namespace Stencil

/-- The second list is the first with neighbouring texts joined. What is a text has one by `text?`,
and `retext` gives it another. -/
inductive Joins {α : Type} (text? : α → Option String) (retext : α → String → α) :
    List α → List α → Prop
  | nil : Joins text? retext [] []
  /-- What is no text stays, and so does a text with none behind it. -/
  | keep {x : α} {xs ys : List α} (hx : text? x ≠ some "")
      (hhead : ∀ y ∈ ys.head?, text? x = none ∨ text? y = none) (h : Joins text? retext xs ys) :
      Joins text? retext (x :: xs) (x :: ys)
  | drop {x : α} {xs ys : List α} (hx : text? x = some "") (h : Joins text? retext xs ys) :
      Joins text? retext (x :: xs) ys
  | join {x y : α} {xs ys : List α} {s t : String} (hx : text? x = some s) (hs : s ≠ "")
      (hy : text? y = some t) (h : Joins text? retext xs (y :: ys)) :
      Joins text? retext (x :: xs) (retext x (s ++ t) :: ys)

namespace Joins

variable {α : Type} {text? : α → Option String} {retext : α → String → α} {xs ys : List α}

/-- What is no text stays. -/
theorem other {x : α} (hx : text? x = none) (h : Joins text? retext xs ys) :
    Joins text? retext (x :: xs) (x :: ys) :=
  .keep (by simp [hx]) (fun _ _ => .inl hx) h

/-- A text with none behind it stays. -/
theorem last {x : α} {s : String} (hx : text? x = some s) (hs : s ≠ "")
    (hhead : ∀ y ∈ ys.head?, text? y = none) (h : Joins text? retext xs ys) :
    Joins text? retext (x :: xs) (x :: ys) :=
  .keep (by simpa [hx] using hs) (fun y hy => .inr (hhead y hy)) h

/-- No text in a joined list is empty, and no two texts in it are neighbours. -/
theorem separated (h : Joins text? retext xs ys) (hretext : ∀ x s, text? (retext x s) = some s) :
    (∀ y ∈ ys, text? y ≠ some "") ∧ ys.IsChain fun x y => text? x = none ∨ text? y = none := by
  induction h with
  | nil => exact ⟨List.forall_mem_nil _, .nil⟩
  | keep hx hhead _ ih =>
    exact ⟨List.forall_mem_cons.mpr ⟨hx, ih.1⟩, List.isChain_cons.mpr ⟨hhead, ih.2⟩⟩
  | drop _ _ ih => exact ih
  | @join x y xs ys s t hx hs hy _ ih =>
    obtain ⟨hempty, hchain⟩ := ih
    obtain ⟨hhead, hchain⟩ := List.isChain_cons.mp hchain
    -- the joined text stands for the one it took in, which had no text behind it
    have hbehind : ∀ z ∈ ys.head?, text? z = none := fun z hz =>
      (hhead z hz).resolve_left (by simp [hy])
    refine ⟨List.forall_mem_cons.mpr ⟨?_, (List.forall_mem_cons.mp hempty).2⟩,
      List.isChain_cons.mpr ⟨fun z hz => .inr (hbehind z hz), hchain⟩⟩
    rw [hretext]
    intro hnothing
    exact hs (String.append_eq_empty_iff.mp (Option.some.inj hnothing)).1

/-- Where no text is empty and no two are neighbours, joining changes nothing. -/
theorem eq_of_separated (h : Joins text? retext xs ys) (hempty : ∀ x ∈ xs, text? x ≠ some "")
    (hchain : xs.IsChain fun x y => text? x = none ∨ text? y = none) : ys = xs := by
  induction h with
  | nil => rfl
  | keep _ _ _ ih =>
    rw [ih (List.forall_mem_cons.mp hempty).2 (List.isChain_cons.mp hchain).2]
  | drop hx _ _ => exact absurd hx (List.forall_mem_cons.mp hempty).1
  | join hx _ hy _ ih =>
    obtain ⟨hhead, hchain⟩ := List.isChain_cons.mp hchain
    obtain rfl := ih (List.forall_mem_cons.mp hempty).2 hchain
    rcases hhead _ rfl with hnone | hnone
    · rw [hx] at hnone
      cases hnone
    · rw [hy] at hnone
      cases hnone

/-- What is in a joined list was in the list or is a text with another text. -/
theorem mem_or (h : Joins text? retext xs ys) {y : α} (hy : y ∈ ys) :
    y ∈ xs ∨ ∃ x s, y = retext x s := by
  induction h with
  | nil => cases hy
  | keep _ _ _ ih =>
    rcases List.mem_cons.mp hy with rfl | hy
    · exact .inl (List.mem_cons_self ..)
    · exact (ih hy).imp_left (List.mem_cons_of_mem _)
  | drop _ _ ih => exact (ih hy).imp_left (List.mem_cons_of_mem _)
  | join _ _ _ _ ih =>
    rcases List.mem_cons.mp hy with rfl | hy
    · exact .inr ⟨_, _, rfl⟩
    · exact (ih (List.mem_cons_of_mem _ hy)).imp_left (List.mem_cons_of_mem _)

/-- Only texts are joined. -/
theorem mem_of_mem (h : Joins text? retext xs ys) {x : α} (hnone : text? x = none) (hx : x ∈ xs) :
    x ∈ ys := by
  induction h with
  | nil => exact hx
  | keep _ _ _ ih =>
    rcases List.mem_cons.mp hx with rfl | hx
    · exact List.mem_cons_self ..
    · exact List.mem_cons_of_mem _ (ih hx)
  | drop hempty _ ih =>
    rcases List.mem_cons.mp hx with rfl | hx
    · rw [hnone] at hempty
      cases hempty
    · exact ih hx
  | join hfirst _ hsecond _ ih =>
    rcases List.mem_cons.mp hx with rfl | hx
    · rw [hnone] at hfirst
      cases hfirst
    · rcases List.mem_cons.mp (ih hx) with rfl | hx
      · rw [hnone] at hsecond
        cases hsecond
      · exact List.mem_cons_of_mem _ hx

end Joins

/-- The literals of a plan are joined. -/
theorem Merge.joins_joinLiterals (plan : Plan) :
    Joins Op.literal? (fun _ => Op.literal) plan (joinLiterals plan) := by
  fun_induction joinLiterals plan with
  | case1 => exact .nil
  | case2 op rest hnone ih => exact .other hnone ih
  | case3 op rest first hfirst hempty ih =>
    exact .drop (by rw [hfirst, String.isEmpty_iff.mp hempty]) ih
  | case4 op rest first hfirst hne hrest ih =>
    rw [hrest] at ih
    exact .last hfirst (mt String.isEmpty_iff.mpr hne) (by simp) ih
  | case5 op rest first hfirst hne next more hrest second hsecond ih =>
    rw [hrest] at ih
    exact .join hfirst (mt String.isEmpty_iff.mpr hne) hsecond ih
  | case6 op rest first hfirst hne next more hrest hnone ih =>
    rw [hrest] at ih
    exact .last hfirst (mt String.isEmpty_iff.mpr hne) (by simpa using hnone) ih

/-- The texts among nodes are joined. -/
theorem joins_mergeTexts (nodes : List Node) :
    Joins Node.literal? (fun n s => .text (.literal s) n.place) nodes (mergeTexts nodes) := by
  fun_induction mergeTexts nodes with
  | case1 => exact .nil
  | case2 n rest hnone ih => exact .other hnone ih
  | case3 n rest first hfirst hempty ih =>
    exact .drop (by rw [hfirst, String.isEmpty_iff.mp hempty]) ih
  | case4 n rest first hfirst hne hrest ih =>
    rw [hrest] at ih
    exact .last hfirst (mt String.isEmpty_iff.mpr hne) (by simp) ih
  | case5 n rest first hfirst hne next more hrest second hsecond ih =>
    rw [hrest] at ih
    exact .join hfirst (mt String.isEmpty_iff.mpr hne) hsecond ih
  | case6 n rest first hfirst hne next more hrest hnone ih =>
    rw [hrest] at ih
    exact .last hfirst (mt String.isEmpty_iff.mpr hne) (by simpa using hnone) ih

end Stencil
