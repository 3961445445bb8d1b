import Stencil.Plan.Merge
import Stencil.Proofs.Markup.Marks
import Stencil.Proofs.Results

/-!
# Static markup

A tree of which everything is known when it is compiled is compiled to its own text. The text is
written down here by one recursion over the tree, which knows nothing of plans: tags with their
attributes, escaped texts, and of every block with constant conditions the body that is taken.

Compilation takes another way. It emits the text in pieces, merges the plans of the bodies first,
decides the branches and joins what is left; the result (`ofTree_static`) is that one literal
remains, or none if there is nothing to write.
-/

namespace Stencil

/-! ## Texts of static trees -/

/-- A value that is known: a text, texts to be joined, or a toggle that is always on. -/
def Content.IsStatic : Content → Prop
  | .literal _ => True
  | .toggle e => e.alwaysTrue
  | .joined parts => ∀ p ∈ parts, p.literal?.isSome
  | _ => False

/-- A node of which everything is known, what it holds aside. -/
def Node.IsStatic : Node → Prop
  | .element _ attributes _ _ _ => ∀ a ∈ attributes, a.value.IsStatic
  | .text content _ => content.literal?.isSome
  | .doctype _ => True
  | .choice branches _ => ∀ b ∈ branches, ∀ condition ∈ b.1, condition.constant?.isSome
  | _ => False

/-- An attribute in a tag. Of texts that are joined the empty ones are left out. -/
def Attribute.markup (a : Attribute) : String :=
  match a.value with
  | .toggle _ => " " ++ a.name
  | .literal text => " " ++ a.name ++ "=\"" ++ Text.escape text ++ "\""
  | .joined parts =>
    let texts := (parts.filterMap Content.literal?).filter fun text => !text.isEmpty
    " " ++ a.name ++ "=\"" ++ Text.escape (" ".intercalate texts) ++ "\""
  | _ => ""

/-- Attributes in a tag. -/
def attributesMarkup : List Attribute → String
  | [] => ""
  | a :: rest => a.markup ++ attributesMarkup rest

mutual

/-- The text of a static node, with no end tag for the elements that are void. -/
def Node.markup (isVoid : List Char → Bool) : Node → String
  | .element name attributes children _ _ =>
    "<" ++ name ++ attributesMarkup attributes ++ ">" ++
      if isVoid name.toList then "" else markup isVoid children ++ "</" ++ name ++ ">"
  | .text content _ => Text.escape (content.literal?.getD "")
  | .doctype _ => "<!DOCTYPE html>"
  | .choice branches _ => takenMarkup isVoid branches
  | _ => ""

/-- The text of static nodes. -/
def markup (isVoid : List Char → Bool) : List Node → String
  | [] => ""
  | n :: rest => n.markup isVoid ++ markup isVoid rest

/-- The text of the first body whose condition is missing or a true constant. -/
def takenMarkup (isVoid : List Char → Bool) : List (Option Expr × List Node) → String
  | [] => ""
  | (none, body) :: _ => markup isVoid body
  | (some condition, body) :: rest =>
    if condition.constant?.any Constant.truth then markup isVoid body else takenMarkup isVoid rest

end

/-! ## Plans of literals -/

/-- The plan that writes a text, which is empty if the text is. -/
def Plan.ofText (text : String) : Plan :=
  if text.isEmpty then [] else [.literal text]

/-- A plan of literals only, which say the text one after the other. -/
inductive Plan.IsText : Plan → String → Prop
  | nil : IsText [] ""
  | cons {rest : Plan} {first more : String} (h : IsText rest more) :
      IsText (.literal first :: rest) (first ++ more)

namespace Plan.IsText

theorem literal (text : String) : IsText [.literal text] text := by
  have h : IsText [.literal text] (text ++ "") := cons nil
  rwa [String.append_empty] at h

theorem append {p q : Plan} {first more : String} (hp : IsText p first) (hq : IsText q more) :
    IsText (p ++ q) (first ++ more) := by
  induction hp with
  | nil => rwa [String.empty_append]
  | cons _ ih =>
    rw [String.append_assoc]
    exact cons ih

theorem ofText (text : String) : IsText (Plan.ofText text) text := by
  unfold Plan.ofText
  by_cases h : text.isEmpty
  · rw [if_pos h, String.isEmpty_iff.mp h]
    exact nil
  · rw [if_neg h]
    exact literal text

end Plan.IsText

namespace Merge

/-- Literals are joined to one, or to none if they say nothing. -/
theorem joinLiterals_of_isText {p : Plan} {text : String} (h : p.IsText text) :
    joinLiterals p = Plan.ofText text := by
  induction h with
  | nil => rfl
  | @cons rest first more h ih =>
    have hop : (Op.literal first).literal? = some first := rfl
    unfold joinLiterals
    rw [hop, ih]
    dsimp only
    -- a literal that says nothing is dropped, and one with nothing said behind it stays alone
    by_cases hfirst : first.isEmpty
    · rw [if_pos hfirst, String.isEmpty_iff.mp hfirst, String.empty_append]
    have hsum : ¬ (first ++ more).isEmpty := by
      rw [String.isEmpty_iff, String.append_eq_empty_iff]
      intro hempty
      exact hfirst (String.isEmpty_iff.mpr hempty.1)
    rw [if_neg hfirst]
    unfold Plan.ofText
    rw [if_neg hsum]
    by_cases hmore : more.isEmpty
    · rw [if_pos hmore, String.isEmpty_iff.mp hmore, String.append_empty]
    · rw [if_neg hmore]
      rfl

theorem simplify_append (p q : Plan) : simplify (p ++ q) = simplify p ++ simplify q := by
  induction p with
  | nil => rw [simplify, List.nil_append, List.nil_append]
  | cons op rest ih => rw [List.cons_append, simplify, simplify, ih, List.append_assoc]

theorem simplify_of_isText {p : Plan} {text : String} (h : p.IsText text) : simplify p = p := by
  induction h with
  | nil => rw [simplify]
  | cons _ ih =>
    rw [simplify, ih, simplifyOp]
    · rfl
    all_goals simp

variable {body : Plan} {rest : List (Option Expr × Plan)} {e : Expr} {c : Constant}

/-- A first branch without a condition is taken. -/
theorem resolve_none : resolve ((none, body) :: rest) = body := by
  unfold resolve
  rw [prune]

/-- A first branch whose condition is true is taken. -/
theorem resolve_true (hc : e.constant? = some c) (htruth : c.truth) :
    resolve ((some e, body) :: rest) = body := by
  unfold resolve
  rw [prune, hc]
  dsimp only
  rw [if_pos htruth]

/-- A first branch whose condition is false does not count. -/
theorem resolve_false (hc : e.constant? = some c) (htruth : ¬ c.truth) :
    resolve ((some e, body) :: rest) = resolve rest := by
  unfold resolve
  rw [prune, hc]
  dsimp only
  rw [if_neg htruth]

end Merge

/-! ## Translation -/

namespace Generate

open Merge Schema

theorem mapM_part {parts : List Content} (h : ∀ p ∈ parts, p.literal?.isSome) :
    parts.mapM part = .ok ((parts.filterMap Content.literal?).map Part.text) := by
  induction parts with
  | nil => exact List.mapM_nil
  | cons p rest ih =>
    obtain ⟨hp, hrest⟩ := List.forall_mem_cons.mp h
    cases p with
    | literal text =>
      rw [List.mapM_cons, ih hrest]
      rfl
    | _ => cases hp

theorem literalTexts?_map (texts : List String) :
    literalTexts? (texts.map Part.text) = some texts := by
  induction texts with
  | nil => rfl
  | cons text rest ih => rw [List.map_cons, literalTexts?, ih, Option.map_some]

/-- A static attribute is translated to literals that say its text. -/
theorem isText_attributeOps {a : Attribute} (h : a.value.IsStatic) :
    ∃ ops, attributeOps a = .ok ops ∧ ops.IsText a.markup := by
  obtain ⟨name, value, place⟩ := a
  have hvalue : ∀ text : String, Plan.IsText
      [.literal (" " ++ name ++ "=\""), .literal text, .literal "\""]
      (" " ++ name ++ "=\"" ++ text ++ "\"") := by
    intro text
    have hops := (Plan.IsText.literal (" " ++ name ++ "=\"")).append
      ((Plan.IsText.literal text).append (Plan.IsText.literal "\""))
    rwa [← String.append_assoc] at hops
  cases value with
  | literal text => exact ⟨_, rfl, hvalue (Text.escape text)⟩
  | toggle e =>
    have halways : e.alwaysTrue = true := h
    refine ⟨[.literal (" " ++ name)], ?_, .literal _⟩
    unfold attributeOps
    dsimp only
    rw [if_pos halways]
  | joined parts =>
    refine ⟨_, ?_, hvalue (Text.escape (joinTexts (parts.filterMap Content.literal?)))⟩
    unfold attributeOps attributeValue
    dsimp only
    rw [mapM_part h]
    show Except.ok _ = Except.ok _
    rw [joinParts, literalTexts?_map]
    rfl
  | dynamic e raw => cases h
  | unknown => cases h

theorem isText_attributesOps {attributes : List Attribute}
    (h : ∀ a ∈ attributes, a.value.IsStatic) :
    ∃ ops, attributesOps attributes = .ok ops ∧ ops.IsText (attributesMarkup attributes) := by
  induction attributes with
  | nil => exact ⟨[], rfl, .nil⟩
  | cons a rest ih =>
    obtain ⟨ha, hrest⟩ := List.forall_mem_cons.mp h
    obtain ⟨first, hfirst, htext⟩ := isText_attributeOps ha
    obtain ⟨others, hothers, hmore⟩ := ih hrest
    refine ⟨first ++ others, ?_, htext.append hmore⟩
    rw [attributesOps, hfirst, hothers]
    rfl

/-- The plan of an element from the plans of its attributes and of its children. -/
theorem node_element (name : String) {attributes : List Attribute} {children : List Node}
    {inTag inside : Plan} (void : Bool) (place : Option Location)
    (hinTag : attributesOps attributes = .ok inTag) (hinside : nodes children = .ok inside) :
    node (.element name attributes children void place) =
      .ok (.literal ("<" ++ name) :: inTag ++ [.literal ">"] ++
        if void then [] else inside ++ [.literal ("</" ++ name ++ ">")]) := by
  rw [node, hinTag, hinside]
  cases void with
  | true =>
    rw [if_pos rfl, List.append_nil]
    rfl
  | false =>
    rw [if_neg Bool.false_ne_true, ← List.append_assoc]
    rfl

variable {r : Registry}

mutual

theorem isText_node (n : Node) (h : ∀ m ∈ n.walk, m.IsStatic ∧ r.nodeViolations m = []) :
    ∃ ops, node (r.markNode n) = .ok ops ∧ (simplify ops).IsText (n.markup r.isVoid) := by
  match n with
  | .element name attributes children void place =>
    rw [Node.walk, List.forall_mem_cons] at h
    obtain ⟨⟨hstatic, hvalid⟩, hchildren⟩ := h
    obtain ⟨inTag, hinTag, htag⟩ := isText_attributesOps hstatic
    obtain ⟨inside, hinside, hbody⟩ := isText_nodes children hchildren
    have hopening : Plan.IsText (.literal ("<" ++ name) :: inTag ++ [.literal ">"])
        ("<" ++ name ++ attributesMarkup attributes ++ ">") :=
      ((Plan.IsText.literal ("<" ++ name)).append htag).append (Plan.IsText.literal ">")
    -- an element without an entry has a violation, so it need not be read
    cases hentry : r.lookup name with
    | none => simp [Registry.nodeViolations, hentry] at hvalid
    | some entry =>
      have hvoid : r.isVoid name.toList = entry.isVoid := by simp [Registry.isVoid, hentry]
      have hplan := node_element name entry.isVoid place hinTag hinside
      rw [Registry.markNode, hentry]
      refine ⟨_, hplan, ?_⟩
      rw [Node.markup, hvoid, simplify_append, simplify_of_isText hopening]
      refine hopening.append ?_
      cases entry.isVoid with
      | true =>
        rw [if_pos rfl, if_pos rfl, simplify]
        exact .nil
      | false =>
        have hclosing := Plan.IsText.literal ("</" ++ name ++ ">")
        rw [if_neg Bool.false_ne_true, if_neg Bool.false_ne_true, simplify_append,
          simplify_of_isText hclosing]
        have hboth := hbody.append hclosing
        rwa [← String.append_assoc, ← String.append_assoc] at hboth
  | .text content place =>
    have hstatic := (h _ (Node.mem_walk_self _)).1
    cases content with
    | literal text =>
      have hplan : node (.text (.literal text) place) = .ok [.literal (Text.escape text)] := by
        rw [node]
        rfl
      have htext := Plan.IsText.literal (Text.escape text)
      rw [Registry.markNode, Node.markup]
      · refine ⟨_, hplan, ?_⟩
        rw [simplify_of_isText htext]
        exact htext
      all_goals simp
    | _ => cases hstatic
  | .doctype place =>
    have htext := Plan.IsText.literal doctype
    rw [Registry.markNode, Node.markup]
    · refine ⟨[.literal doctype], by rw [node], ?_⟩
      rw [simplify_of_isText htext]
      exact htext
    all_goals simp
  | .choice branches place =>
    rw [Node.walk, List.forall_mem_cons] at h
    obtain ⟨⟨hconditions, -⟩, hbodies⟩ := h
    obtain ⟨plans, hplans, htext⟩ := isText_guarded branches hconditions hbodies
    have hplan : node (.choice (r.markBodies branches) place) = .ok [.branch plans] := by
      rw [node, hplans]
      rfl
    rw [Registry.markNode, Node.markup]
    refine ⟨_, hplan, ?_⟩
    rw [simplify, simplify, simplifyOp, List.append_nil]
    exact htext
  | .component .. | .each .. | .cases .. | .unknown =>
    exact (h _ (Node.mem_walk_self _)).1.elim

theorem isText_nodes (l : List Node) (h : ∀ m ∈ walk l, m.IsStatic ∧ r.nodeViolations m = []) :
    ∃ ops, nodes (r.mark l) = .ok ops ∧ (simplify ops).IsText (markup r.isVoid l) := by
  match l with
  | [] =>
    refine ⟨[], by rw [Registry.mark, nodes], ?_⟩
    rw [simplify, markup]
    exact .nil
  | n :: rest =>
    rw [walk, List.forall_mem_append] at h
    obtain ⟨first, hfirst, htext⟩ := isText_node n h.1
    obtain ⟨others, hothers, hmore⟩ := isText_nodes rest h.2
    refine ⟨first ++ others, by rw [Registry.mark, nodes, hfirst, hothers]; rfl, ?_⟩
    rw [simplify_append, markup]
    exact htext.append hmore

theorem isText_guarded (l : List (Option Expr × List Node))
    (hconditions : ∀ b ∈ l, ∀ condition ∈ b.1, condition.constant?.isSome)
    (h : ∀ m ∈ walkBodies l, m.IsStatic ∧ r.nodeViolations m = []) :
    ∃ plans, guarded (r.markBodies l) = .ok plans ∧
      (resolve (mergeGuarded plans)).IsText (takenMarkup r.isVoid l) := by
  match l with
  | [] =>
    refine ⟨[], by rw [Registry.markBodies, guarded], ?_⟩
    rw [mergeGuarded, takenMarkup]
    exact .nil
  | (condition, body) :: rest =>
    obtain ⟨hcondition, hconditions⟩ := List.forall_mem_cons.mp hconditions
    rw [walkBodies, List.forall_mem_append] at h
    obtain ⟨plan, hplan, htext⟩ := isText_nodes body h.1
    obtain ⟨others, hothers, hlater⟩ := isText_guarded rest hconditions h.2
    have hplans : guarded (r.markBodies ((condition, body) :: rest)) =
        .ok ((condition, plan) :: others) := by
      rw [Registry.markBodies, guarded, hplan, hothers]
      rfl
    -- the merged plan of the body, which is put in place of the block if the body is taken
    have hbody : (joinLiterals (simplify plan)).IsText (markup r.isVoid body) := by
      rw [joinLiterals_of_isText htext]
      exact .ofText _
    refine ⟨_, hplans, ?_⟩
    rw [mergeGuarded]
    cases condition with
    | none =>
      rw [resolve_none, takenMarkup]
      exact hbody
    | some e =>
      obtain ⟨c, hc⟩ := Option.isSome_iff_exists.mp (hcondition e rfl)
      rw [takenMarkup, hc, Option.any_some]
      by_cases htruth : c.truth
      · rw [resolve_true hc htruth, if_pos htruth]
        exact hbody
      · rw [resolve_false hc htruth, if_neg htruth]
        exact hlater

end

end Generate

/-! ## The result -/

/-- **Static markup is compiled to its own text**: the plan of an accepted tree of which everything
is known is the one literal that the tree is written as, or empty if nothing is written. -/
theorem Plan.ofTree_static {r : Schema.Registry} {nodes tree : List Node}
    (hstatic : ∀ n ∈ walk nodes, n.IsStatic) (hcheck : r.check nodes = .ok tree) :
    Plan.ofTree tree = .ok (Plan.ofText (markup r.isVoid nodes)) := by
  obtain ⟨hnone, rfl⟩ := r.check_eq_ok.mp hcheck
  have hnodes : ∀ n ∈ walk nodes, n.IsStatic ∧ r.nodeViolations n = [] := by
    intro n hn
    exact ⟨hstatic n hn, List.flatMap_eq_nil_iff.mp hnone n hn⟩
  obtain ⟨ops, hops, htext⟩ := Generate.isText_nodes nodes hnodes
  rw [Plan.ofTree, hops, ← Merge.joinLiterals_of_isText htext]
  rfl

set_option maxRecDepth 20000 in
theorem reads_true : Term.read? (Expr.codeText "True") = some (.lit (.bool true)) := rfl

set_option maxRecDepth 20000 in
theorem reads_zero : Term.read? (Expr.codeText "0") = some (.lit (.int 0)) := rfl

/-- The constant `True`. -/
def trueExpr : Expr := ⟨"True", .lit (.bool true), none, reads_true⟩

/-- The constant `0`. -/
def zeroExpr : Expr := ⟨"0", .lit (.int 0), none, reads_zero⟩

/-- A field with two classes and a toggle, and a block of which the second body is taken. -/
def staticField : List Node :=
  [.element "input" [⟨"class", .joined [.literal "a", .literal "", .literal "b"], none⟩,
      ⟨"hidden", .toggle trueExpr, none⟩] [] false none,
    .choice [(some zeroExpr, [.doctype none]), (none, [.text (.literal "<") none])] none]

theorem Plan.ofTree_static_field : ∃ tree, Schema.Registry.builtin.check staticField = .ok tree ∧
    Plan.ofTree tree = .ok [.literal "<input class=\"a b\" hidden>&lt;"] := by
  have htrue : trueExpr.alwaysTrue = true := rfl
  have hzero : zeroExpr.constant? = some (.int 0) := rfl
  have hstatic : ∀ n ∈ walk staticField, n.IsStatic := by
    simp [staticField, walk, Node.walk, walkBodies, Node.IsStatic, Content.IsStatic,
      Content.literal?, or_imp, forall_and, htrue, hzero]
  have hrun : Schema.Registry.builtin.violations staticField = [] ∧
      markup Schema.Registry.builtin.isVoid staticField =
        "<input class=\"a b\" hidden>&lt;" := by decide +kernel
  have hcheck := Schema.Registry.builtin.check_of_nil hrun.1
  have hplan := Plan.ofTree_static hstatic hcheck
  rw [hrun.2] at hplan
  exact ⟨_, hcheck, hplan⟩

end Stencil
