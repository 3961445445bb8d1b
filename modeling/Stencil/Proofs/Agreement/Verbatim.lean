import Stencil.Proofs.Agreement.ReadsOnly
import Stencil.Proofs.Agreement.Trees
import Stencil.Proofs.Reading.Tokens

/-!
# Expressions are embedded as they are

An expression whose brackets and quotes come in pairs stands in a template as it is: in braces or in
parentheses, in raw output, and, if it has no brace outside of brackets and strings, as the
condition of a branch. What is found between brackets is always such a text.
-/

namespace Stencil

/-! ## Texts that are expressions -/

namespace Expr

variable {text : String} {place : Option Location} {e : Expr}

/-- A text that can be read as an expression, with no blank at either end, is the source of the
expression. -/
theorem source_eq (h : ofSource text place = .ok e) (htrim : Text.trim text.toList = text.toList) :
    e.source = text ∧ text.toList ≠ [] := by
  obtain ⟨hsource, hne, -⟩ := ofSource_eq_ok h
  rw [htrim, String.ofList_toList] at hsource
  refine ⟨hsource, fun hempty => hne ?_⟩
  rw [hsource]
  exact String.toList_eq_nil_iff.mp hempty

end Expr

namespace Source

open Matcher

/-- There is nothing to skip in front of an expression: it begins with no slash. -/
theorem firm_source {e : Expr} (he : Embeds true e.source.toList) (t : List Char) :
    Firm (e.source.toList ++ t) := by
  have hreads := e.reads
  obtain ⟨hhead, -⟩ := stops_of_trim he.trim
  obtain ⟨c, more, hc⟩ := List.exists_cons_of_ne_nil he.ne_nil
  rw [Expr.codeText, hc] at hreads
  rw [hc] at hhead ⊢
  have hblank : Text.isBlank c = false := by simpa [Stops] using hhead
  have hspace : Text.isSpace c = false := by
    by_contra hspace
    rw [Text.isBlank_of_isSpace (by simpa using hspace)] at hblank
    cases hblank
  have hslash : c ≠ '/' := by
    rintro rfl
    rw [List.cons_append, List.cons_append, Term.read_slash] at hreads
    cases hreads
  simp [Stops, hspace, hslash]

/-! ## Documents of one node -/

variable {n : Node} {s : List Char}

theorem takes_many_single {p : Matcher Surface} (hs : s ≠ []) (hn : n.literal? = none)
    (h : p.Takes s [] (·.Means n)) : (many p).Takes s [] (Mean · [n]) := by
  have hall : TakesAll p Surface.Means s [] [n] := by
    simpa using TakesAll.cons hs (by simpa using h) (.nil (.inl rfl))
  exact hall.many.mono fun surface hsurface =>
    mean_of_forall₂ hsurface (Separated.nil.cons (by rw [hn]; nofun) fun _ _ => .inl hn)

/-- The text is read as a tree that says the same. -/
def ReadsAs (d : Dialect) (text : String) (tree : List Node) : Prop :=
  ∃ nodes, read d text = .ok nodes ∧ sameNodes nodes tree

theorem readsAs_rsx (hs : s ≠ []) (hn : n.literal? = none)
    (h : (Rsx.node (Rsx.nodesWithin s.length)).Takes s [] (·.Means n)) :
    ReadsAs .rsx (String.ofList s) [n] :=
  read_of_takes (takes_rsx (takes_many_single hs hn h))

theorem readsAs_maud (hfirm : Firm s) (hs : s ≠ []) (hn : n.literal? = none)
    (h : (Maud.node (Maud.nodesWithin s.length)).Takes s [] (·.Means n)) :
    ReadsAs .maud (String.ofList s) [n] := by
  refine read_of_takes (takes_maud hfirm (takes_many_single hs hn ?_))
  have hspaced : (Maud.nodesWithin.spaced (Maud.node (Maud.nodesWithin s.length))).Takes
      (s ++ []) [] (·.Means n) :=
    h.bind fun found hfound => (Maud.skips.nothing (by rfl)).map fun _ _ => hfound
  rwa [List.append_nil] at hspaced

/-! ## Expressions in documents -/

variable {e : Expr}

theorem readsAs_dynamic (d : Dialect) (he : Embeds true e.source.toList) (raw : Bool) :
    ReadsAs d (String.ofList (Spell.text d (.dynamic e raw))) [.text (.dynamic e raw) none] := by
  cases d with
  | rsx =>
    exact readsAs_rsx (by cases raw <;> exact List.cons_ne_nil _ _) rfl
      (Rsx.takes_dynamic he raw none [])
  | maud =>
    exact readsAs_maud (by cases raw <;> rfl) (by cases raw <;> exact List.cons_ne_nil _ _) rfl
      (Maud.takes_dynamic he raw none [])

theorem readsAs_test (d : Dialect) (he : Embeds false e.source.toList) :
    ReadsAs d (String.ofList (Spell.guarded d true [(some e, [])]))
      [.choice [(some e, [])] none] := by
  have hspelled : NodesCanBeSpelled [] := by rw [NodesCanBeSpelled]; trivial
  have hdepth : 0 < (Spell.guarded d true [(some e, [])]).length := Nat.succ_pos _
  have hfirm := firm_source he.mono
  cases d with
  | rsx =>
    refine readsAs_rsx (List.cons_ne_nil _ _) rfl
      (Rsx.takes_test he hfirm (fun t ht => ?_) opens_nil.follows none)
    exact Rsx.readsNodes.takes _ hspelled hdepth ht
  | maud =>
    refine readsAs_maud rfl (List.cons_ne_nil _ _) rfl
      (Maud.takes_test he hfirm (Maud.blocks hspelled fun t ht => ?_) opens_nil.follows none)
    exact Maud.readsNodes.takes _ hspelled hdepth ht

/-- **Expressions are embedded as they are.** A balanced text that can be read as an expression,
with no blank at either end, is read as this expression where values are put in, escaped or raw, and
in a condition if there is no brace outside of its brackets and strings. Conversely, what is found
between brackets is balanced. -/
theorem readsAs_ofSource :
    (∀ (text : String) (place : Option Location) (e : Expr), Expr.ofSource text place = .ok e →
      Text.trim text.toList = text.toList → Balanced true text.toList →
        ReadsAs .rsx ("\x7b" ++ text ++ "\x7d") [.text (.dynamic e false) none] ∧
        ReadsAs .maud ("(" ++ text ++ ")") [.text (.dynamic e false) none] ∧
        (∀ d, ReadsAs d ("@raw(" ++ text ++ ")") [.text (.dynamic e true) none]) ∧
        (Balanced false text.toList →
          ∀ d, ReadsAs d ("@if " ++ text ++ " \x7b\x7d") [.choice [(some e, [])] none])) ∧
      exprBody.ReadsOnly (Balanced true) := by
  refine ⟨fun text place e h htrim hbalanced => ?_, readsOnly_exprBody⟩
  obtain ⟨rfl, hne⟩ := Expr.source_eq h htrim
  have he : Embeds true e.source.toList := ⟨hbalanced, hne, htrim⟩
  have hbraced : Spell.text .rsx (.dynamic e false) = ("\x7b" ++ e.source ++ "\x7d").toList := by
    simp [Spell.text, Spell.splice]
  have hparens : Spell.text .maud (.dynamic e false) = ("(" ++ e.source ++ ")").toList := by
    simp [Spell.text, Spell.splice]
  have hraw (d : Dialect) :
      Spell.text d (.dynamic e true) = ("@raw(" ++ e.source ++ ")").toList := by
    simp [Spell.text]
  have htest (d : Dialect) :
      Spell.guarded d true [(some e, [])] = ("@if " ++ e.source ++ " \x7b\x7d").toList := by
    simp [Spell.guarded, Spell.opening, Spell.block, Spell.nodes]
  refine ⟨?_, ?_, fun d => ?_, fun hbraces d => ?_⟩
  · have hread := readsAs_dynamic .rsx he false
    rwa [hbraced, String.ofList_toList] at hread
  · have hread := readsAs_dynamic .maud he false
    rwa [hparens, String.ofList_toList] at hread
  · have hread := readsAs_dynamic d he true
    rwa [hraw, String.ofList_toList] at hread
  · have hread := readsAs_test d ⟨hbraces, hne, htrim⟩
    rwa [htest, String.ofList_toList] at hread

/-- An expression with a bracket in quotes and quotes in brackets. -/
def nested : String :=
  "f('(', x)[\"]\"]"

theorem nested_chars : nested.toList =
    'f' :: '(' :: (('\'' :: (['('] ++ '\'' :: [',', ' ', 'x'])) ++
      ')' :: ('[' :: (('"' :: ([']'] ++ ['"'])) ++ [']']))) :=
  rfl

theorem balanced_nested : Balanced false nested.toList := by
  have hopen : IsStringBody '\'' ['('] := .plain (by decide) (by decide) (by decide) .nil
  have hclose : IsStringBody '"' [']'] := .plain (by decide) (by decide) (by decide) .nil
  have harguments : Balanced true ('\'' :: (['('] ++ '\'' :: [',', ' ', 'x'])) :=
    .string (.inr rfl) hopen (.of_code (by simp [isCode]))
  have hkey : Balanced true ('"' :: ([']'] ++ ['"'])) := .string (.inl rfl) hclose .nil
  rw [nested_chars]
  exact .code (by decide) (.group (by rfl) (fun h => absurd h (by decide)) harguments
    (.group (by rfl) (fun h => absurd h (by decide)) hkey .nil))

theorem readsAs_ofSource_nested : ∃ e, Expr.ofSource nested none = .ok e ∧
    ReadsAs .rsx ("\x7b" ++ nested ++ "\x7d") [.text (.dynamic e false) none] ∧
    ReadsAs .maud ("(" ++ nested ++ ")") [.text (.dynamic e false) none] ∧
    (∀ d, ReadsAs d ("@raw(" ++ nested ++ ")") [.text (.dynamic e true) none]) ∧
    (∀ d, ReadsAs d ("@if " ++ nested ++ " \x7b\x7d") [.choice [(some e, [])] none]) ∧
    ∃ s, Balanced true s ∧ nested.toList ++ ['\x7d'] = s ++ ['\x7d'] := by
  have hreads : (Term.read? (Expr.codeText nested)).isSome := by decide +kernel
  have htrim : Text.trim nested.toList = nested.toList := by decide +kernel
  obtain ⟨code, hcode⟩ := Option.isSome_iff_exists.mp hreads
  have hne : nested ≠ "" := by decide
  obtain ⟨e, he, -⟩ := ofSource_of_trim (e := ⟨nested, code, none, hcode⟩) hne htrim none
  obtain ⟨hrsx, hmaud, hraw, htest⟩ :=
    readsAs_ofSource.1 nested none e he htrim balanced_nested.mono
  obtain ⟨_, -, hresult⟩ := takes_exprBody balanced_nested.mono (.inr (.inr rfl)) [] 0
  obtain ⟨s, hs, hrest, -⟩ := readsAs_ofSource.2 hresult
  exact ⟨e, he, hrsx, hmaud, hraw, htest balanced_nested, s, hs, hrest⟩

end Source

end Stencil
