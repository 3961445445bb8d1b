import Stencil.Proofs.Agreement.Maud
import Stencil.Proofs.Agreement.Rsx
import Stencil.Proofs.Sameness.Bare

/-!
# The dialects agree

A tree that is spelled in either dialect is read as it was. So what is written in one dialect can be
written in the other.
-/

namespace Stencil

/-! ## Whole sources -/

namespace Source

open Matcher

theorem takes_endOfInput : endOfInput.Takes [] [] fun _ => True :=
  (Takes.token (s := []) (by rfl)).mono fun _ _ => trivial

variable {depth : Nat} {text : List Char} {tree : List Node}

theorem takes_end {surface : List Surface} (h : Mean surface tree) :
    (do let _ ← endOfInput; return surface).Takes [] [] (Mean · tree) :=
  takes_endOfInput.map fun _ _ => h

/-- A document of tags is the nodes in it. -/
theorem takes_rsx (h : Takes (Rsx.nodesWithin depth) text [] (Mean · tree)) :
    (grammar .rsx depth).Takes text [] (Mean · tree) := by
  have htext : text = text ++ [] := (List.append_nil _).symm
  rw [htext]
  exact Takes.named _ (Takes.bind h fun _ hmean => takes_end hmean)

/-- A document of blocks is the nodes in it, if there is nothing to skip in front of them. -/
theorem takes_maud (hfirm : Firm text)
    (h : Takes (Maud.nodesWithin depth) text [] (Mean · tree)) :
    (grammar .maud depth).Takes text [] (Mean · tree) := by
  have htext : text = text ++ [] := (List.append_nil _).symm
  rw [htext]
  refine Takes.named _ (Takes.skip (Maud.skips.nothing ?_) fun _ _ => ?_)
  · rwa [List.append_nil, List.append_nil]
  · exact Takes.bind h fun _ hmean => takes_end hmean

/-- A grammar takes the spelling of a tree. -/
theorem takes_grammar (d : Dialect) (h : NodesCanBeSpelled tree)
    (hdepth : (Spell.nodes d tree).length < depth) :
    (grammar d depth).Takes (Spell.nodes d tree) [] (Mean · tree) := by
  cases d with
  | rsx => exact takes_rsx (Rsx.readsNodes.takes depth h hdepth (.inl rfl))
  | maud =>
    have hfirm := (Maud.opens_nodes h opens_nil).1
    rw [List.append_nil] at hfirm
    exact takes_maud hfirm (Maud.readsNodes.takes depth h hdepth (.inl rfl))

/-- What a grammar takes whole is read as what it means. -/
theorem read_of_takes {d : Dialect}
    (h : (grammar d (text.length + 1)).Takes text [] (Mean · tree)) :
    ∃ nodes, read d (String.ofList text) = .ok nodes ∧ sameNodes nodes tree := by
  obtain ⟨surface, hmean, hresult⟩ := h 0
  obtain ⟨items, hitems, hsame, -⟩ := hmean text
  rw [List.append_nil] at hresult
  have hrecognize : recognize d text = .ok surface := by
    unfold recognize
    rcases hgrammar : grammar d (text.length + 1) ⟨0, text⟩ with ⟨result, furthest⟩
    rw [hgrammar] at hresult
    cases hresult
    rfl
  refine ⟨childNodes items, ?_, hsame⟩
  rw [read, String.toList_ofList, readChars, hrecognize]
  show (readNodes _ surface >>= fun items => pure (childNodes items)) = _
  rw [hitems]
  rfl

theorem read_source (d : Dialect) (h : NodesCanBeSpelled tree) :
    ∃ nodes, read d (Spell.source d tree) = .ok nodes ∧ sameNodes nodes tree :=
  read_of_takes (takes_grammar d h (Nat.lt_succ_self _))

/-- **The dialects agree.** Every tree that can be spelled is read from its spelling in either
dialect, as trees that say the same as the tree and as each other. -/
theorem read_rsx_maud {tree : List Node} (h : NodesCanBeSpelled tree) :
    ∃ a b, read .rsx (Spell.source .rsx tree) = .ok a ∧
      read .maud (Spell.source .maud tree) = .ok b ∧
        sameNodes a tree ∧ sameNodes b tree ∧ sameNodes a b := by
  obtain ⟨a, ha, hsame⟩ := read_source .rsx h
  obtain ⟨b, hb, hsame'⟩ := read_source .maud h
  exact ⟨a, b, ha, hb, hsame, hsame', sameNodes_of_same tree hsame hsame'⟩

set_option maxRecDepth 20000 in
theorem reads_always : Term.read? (Expr.codeText "True") = some (.lit (.bool true)) := rfl

set_option maxRecDepth 20000 in
/-- A paragraph with attributes of all kinds, texts of all kinds, a loop over components and an
alternative. -/
def page : List Node :=
  let name (text : String) (code : Term) (h : Term.read? (Expr.codeText text) = some code) : Expr :=
    ⟨text, code, none, h⟩
  let e := name "e" (.name "e") rfl
  let always := name "True" (.lit (.bool true)) reads_always
  [.doctype none,
    .element "p" [⟨"class", .literal "a b", none⟩, ⟨"hidden", .toggle e, none⟩,
        ⟨"open", .toggle always, none⟩, ⟨"id", .dynamic e false, none⟩]
      [.text (.literal "say \"x\"") none, .text (.dynamic e false) none,
        .text (.dynamic e true) none,
        .each ["a", "b"] e [.component (name "Card" (.name "Card") rfl) [] [] none] none,
        .choice [(some e, [.text (.literal "y") none]), (none, [])] none,
        .cases e [(some e, []), (none, [.doctype none])] none] false none]

theorem read_rsx_maud_page :
    Spell.source .rsx page =
        "<!DOCTYPE html><p class=\"a b\" hidden?=\x7be\x7d open id=\x7be\x7d>" ++
        "\"say \\\"x\\\"\"\x7be\x7d@raw(e)@for a, b in e \x7b<Card></Card>\x7d" ++
        "@if e \x7b\"y\"\x7d @else \x7b\x7d" ++
        "@match e \x7be => \x7b\x7d _ => \x7b<!DOCTYPE html>\x7d\x7d</p>" ∧
      Spell.source .maud page =
        "!DOCTYPE p class=\"a b\" hidden[e] open id=(e) " ++
        "\x7b\"say \\\"x\\\"\" (e) @raw(e) @for a, b in e \x7bCard \x7b\x7d\x7d " ++
        "@if e \x7b\"y\"\x7d @else \x7b\x7d " ++
        "@match e \x7be => \x7b\x7d _ => \x7b!DOCTYPE\x7d\x7d\x7d" ∧
      ∃ a b, read .rsx (Spell.source .rsx page) = .ok a ∧
        read .maud (Spell.source .maud page) = .ok b ∧
          sameNodes a page ∧ sameNodes b page ∧ sameNodes a b := by
  have hpage : NodesCanBeSpelled page := by
    simp only [page, NodesCanBeSpelled, Node.CanBeSpelled, BranchesCanBeSpelled, ArmsCanBeSpelled,
      Attribute.CanBeSpelled, List.forall_mem_cons, List.not_mem_nil, IsEmpty.forall_iff,
      implies_true, and_true]
    decide +kernel
  exact ⟨by decide +kernel, by decide +kernel, read_rsx_maud hpage⟩

end Source

end Stencil
