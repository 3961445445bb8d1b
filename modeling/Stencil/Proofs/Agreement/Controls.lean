import Stencil.Proofs.Agreement.Means
import Stencil.Source.Control

/-!
# Spelled control blocks

Control blocks are read as they were spelled, in every dialect that skips a space where it should
and reads its blocks.
-/

namespace Stencil

/-- The node is a control block. -/
def Node.IsControl : Node → Prop
  | .choice .. | .each .. | .cases .. => True
  | _ => False

namespace Source

open Matcher

/-- There is nothing to skip in front of the text, and it does not begin with an alternative. -/
def Opens (t : List Char) : Prop :=
  Firm t ∧ ¬ ['@', 'e', 'l', 's', 'e'] <+: t

/-- What may stand behind a node, maybe after a space. -/
def Follows (t : List Char) : Prop :=
  ∃ u, (t = u ∨ t = ' ' :: u) ∧ Opens u

theorem Opens.follows {t : List Char} (h : Opens t) : Follows t :=
  ⟨t, .inl rfl, h⟩

theorem Opens.follows_space {t : List Char} (h : Opens t) : Follows (' ' :: t) :=
  ⟨t, .inr rfl, h⟩

theorem opens_nil : Opens [] :=
  ⟨rfl, by simp⟩

theorem opens_cons {c : Char} (hc : '@' ≠ c) {u : List Char} (hfirm : Firm (c :: u)) :
    Opens (c :: u) :=
  ⟨hfirm, by simp [hc]⟩

theorem opens_word {x : Char} (hx : 'e' ≠ x) (u : List Char) : Opens ('@' :: x :: u) :=
  ⟨rfl, by simp [hx]⟩

theorem firm_brace (t : List Char) : Firm ('{' :: t) := rfl

theorem firm_identifier {s : List Char} (h : isIdentifier s) (t : List Char) : Firm (s ++ t) := by
  obtain ⟨c, more, rfl, hhead, -⟩ := of_isIdentifier h
  exact firm_of_nameChar (nameChar_of_head hhead) _

/-- Nothing is skipped, or a space, if there is no more to skip. -/
structure Skips (skip : Matcher Unit) : Prop where
  nothing : ∀ {t : List Char}, Firm t → skip.Takes [] t fun _ => True
  space : ∀ {t : List Char}, Firm t → skip.Takes [' '] t fun _ => True

namespace ControlStyle

/-- The style reads a body as it is spelled in a block. -/
def Blocks (style : ControlStyle) (d : Dialect) (body : List Node) : Prop :=
  ∀ t, style.block.Takes (Spell.block (Spell.nodes d body)) t (Mean · body)

variable {style : ControlStyle} (hskip : Skips style.skip) {d : Dialect} {t : List Char}

include hskip

/-! ## Alternatives -/

theorem refuses_else {α : Type} {f : Lexeme → Matcher α} (ht : Follows t) :
    (style.skip >>= fun _ => wordElse >>= f).Refuses t := by
  obtain ⟨u, hu, hfirm, hnone⟩ := ht
  have hword : (wordElse >>= f).Refuses u := (Refuses.token (keyword_none hnone)).bind
  rcases hu with rfl | rfl
  · exact (hskip.nothing hfirm).refuses fun _ _ => hword
  · exact (hskip.space hfirm).refuses fun _ _ => hword

theorem refuses_elseIf (ht : Follows t) : style.elseIf.Refuses t :=
  (refuses_else hskip ht).named _

theorem refuses_elseBlock (ht : Follows t) : style.elseBlock.Refuses t :=
  (refuses_else hskip ht).named _

theorem takes_elseIf {e : Expr} {body : List Node} (he : isIdentifier e.source.toList)
    (hbody : style.Blocks d body) :
    style.elseIf.Takes (Spell.opening false (some e) ++ Spell.block (Spell.nodes d body)) t
      (MeansBranch · (e, body)) := by
  have htext : Spell.opening false (some e) ++ Spell.block (Spell.nodes d body) =
      [' '] ++ (['@', 'e', 'l', 's', 'e'] ++ ([' '] ++ (['i', 'f'] ++ ([' '] ++
        ((e.source.toList ++ [' ']) ++ Spell.block (Spell.nodes d body)))))) := by
    simp [Spell.opening]
  rw [htext]
  refine Takes.named _ ((hskip.space (by rfl)).bind fun _ _ => ?_)
  refine (Takes.token (keyword_append (by rfl))).bind fun _ _ => ?_
  refine (hskip.space (by rfl)).bind fun _ _ => ?_
  refine (Takes.token (keyword_append (by rfl))).bind fun _ _ => ?_
  refine (hskip.space ?_).bind fun _ _ => ?_
  · rw [List.append_assoc, List.append_assoc]
    exact firm_identifier he _
  refine (takes_condition (embeds_identifier he) _).bind fun test htest => ?_
  exact (hbody t).map fun inside hinside =>
    ⟨Lexeme.spells_spaced (embeds_identifier he) htest, hinside⟩

theorem takes_elseBlock {body : List Node} (hbody : style.Blocks d body) :
    style.elseBlock.Takes (Spell.opening false none ++ Spell.block (Spell.nodes d body)) t
      (Mean · body) := by
  have htext : Spell.opening false none ++ Spell.block (Spell.nodes d body) =
      [' '] ++ (['@', 'e', 'l', 's', 'e'] ++ ([' '] ++ Spell.block (Spell.nodes d body))) := by
    simp [Spell.opening]
  rw [htext]
  refine Takes.named _ ((hskip.space (by rfl)).bind fun _ _ => ?_)
  refine (Takes.token (keyword_append (by rfl))).bind fun _ _ => ?_
  exact (hskip.space (by rfl)).bind fun _ _ => hbody t

/-- The alternative without a condition is none with one. -/
theorem refuses_elseIf_last (inside : List Char) :
    style.elseIf.Refuses (Spell.opening false none ++ (Spell.block inside ++ t)) := by
  have htext : Spell.opening false none ++ (Spell.block inside ++ t) =
      [' '] ++ (['@', 'e', 'l', 's', 'e'] ++ ([' '] ++ (Spell.block inside ++ t))) := by
    simp [Spell.opening]
  rw [htext]
  refine Refuses.named _ ((hskip.space (by rfl)).refuses fun _ _ => ?_)
  refine (Takes.token (keyword_append (by rfl))).refuses fun _ _ => ?_
  refine (hskip.space (by rfl)).refuses fun _ _ => ?_
  refine (Refuses.token (keyword_none ?_)).bind
  simp [Spell.block]

/-- The alternatives are those with conditions and then the one without, if there is one. -/
theorem takes_alternatives (ht : Follows t) (branches : List (Option Expr × List Node))
    (hspelled : BranchesCanBeSpelled false branches)
    (hbodies : ∀ b ∈ branches, style.Blocks d b.2) :
    ∃ s s' tests last, Spell.guarded d false branches = s ++ s' ∧
      branches = tests.map (fun b => (some b.1, b.2)) ++ (last.map (none, ·)).toList ∧
      TakesAll style.elseIf MeansBranch s (s' ++ t) tests ∧
      (optional style.elseBlock).Takes s' t (MeansLast · last) := by
  induction branches with
  | nil =>
    refine ⟨[], [], [], none, rfl, rfl, .nil (.inr (refuses_elseIf hskip ht)), ?_⟩
    refine (Refuses.optional (.inr (refuses_elseBlock hskip ht))).mono ?_
    rintro found rfl
    trivial
  | cons branch rest ih =>
    obtain ⟨hbody, hrest⟩ := List.forall_mem_cons.mp hbodies
    obtain ⟨condition, body⟩ := branch
    rcases condition with _ | e
    · rw [BranchesCanBeSpelled] at hspelled
      -- a branch without a condition is the last one
      obtain ⟨-, -, rfl⟩ := hspelled
      refine ⟨[], Spell.opening false none ++ Spell.block (Spell.nodes d body), [], some body, ?_,
        rfl, .nil (.inr ?_), ?_⟩
      · rw [Spell.guarded_cons, Spell.guarded, List.append_nil, List.nil_append]
      · rw [List.append_assoc]
        exact refuses_elseIf_last hskip _
      · refine ((takes_elseBlock hskip hbody).optional (by simp [Spell.block])).mono ?_
        rintro found ⟨inside, rfl, hinside⟩
        exact hinside
    · rw [BranchesCanBeSpelled] at hspelled
      obtain ⟨he, -, hspelled⟩ := hspelled
      obtain ⟨s, s', tests, last, htext, hbranches, htests, hlast⟩ := ih hspelled hrest
      refine ⟨Spell.opening false (some e) ++ Spell.block (Spell.nodes d body) ++ s, s',
        (e, body) :: tests, last, ?_, ?_, ?_, hlast⟩
      · rw [Spell.guarded_cons, htext]
        simp only [List.append_assoc]
      · rw [hbranches]
        rfl
      · exact .cons (by simp [Spell.block]) (takes_elseIf hskip he hbody) htests

/-! ## Blocks -/

/-- The first condition may be any text that can be embedded. -/
theorem takes_ifBlock_of_embeds (ht : Follows t) {e : Expr} (he : Embeds false e.source.toList)
    (hfirm : ∀ u, Firm (e.source.toList ++ u)) {body : List Node}
    {rest : List (Option Expr × List Node)} (hspelled : BranchesCanBeSpelled false rest)
    (hbodies : ∀ b ∈ (some e, body) :: rest, style.Blocks d b.2) (place : Option Location) :
    style.ifBlock.Takes (Spell.guarded d true ((some e, body) :: rest)) t
      (·.Means (.choice ((some e, body) :: rest) place)) := by
  obtain ⟨hbody, hrest⟩ := List.forall_mem_cons.mp hbodies
  obtain ⟨s, s', tests, last, htext, rfl, htests, hlast⟩ :=
    takes_alternatives hskip ht rest hspelled hrest
  have hall : Spell.guarded d true ((some e, body) ::
      (tests.map (fun b => (some b.1, b.2)) ++ (last.map (none, ·)).toList)) =
      ['@', 'i', 'f'] ++ ([' '] ++ ((e.source.toList ++ [' ']) ++
        (Spell.block (Spell.nodes d body) ++ (s ++ s')))) := by
    rw [Spell.guarded_cons, htext]
    simp [Spell.opening]
  rw [hall]
  refine Takes.named _ (Takes.offset.skip fun offset _ => ?_)
  refine (Takes.token (keyword_append (by rfl))).bind fun _ _ => ?_
  refine (hskip.space ?_).bind fun _ _ => ?_
  · rw [List.append_assoc, List.append_assoc]
    exact hfirm _
  refine (takes_condition he _).bind fun test htest => ?_
  refine (hbody _).bind fun inside hinside => ?_
  refine htests.many.bind fun others hothers => ?_
  refine hlast.map fun found hfound => ?_
  have hbranches : List.Forall₂ MeansBranch ((test, inside) :: others) ((e, body) :: tests) :=
    .cons ⟨Lexeme.spells_spaced he.mono htest, hinside⟩ hothers
  exact means_choice hbranches hfound offset place

theorem takes_ifBlock (ht : Follows t) {branches : List (Option Expr × List Node)}
    (hspelled : BranchesCanBeSpelled true branches) (hbodies : ∀ b ∈ branches, style.Blocks d b.2)
    (place : Option Location) :
    style.ifBlock.Takes (Spell.guarded d true branches) t (·.Means (.choice branches place)) := by
  rcases branches with _ | ⟨⟨_ | e, body⟩, rest⟩
  · simp [BranchesCanBeSpelled] at hspelled
  · simp [BranchesCanBeSpelled] at hspelled
  rw [BranchesCanBeSpelled] at hspelled
  obtain ⟨he, -, hspelled⟩ := hspelled
  exact takes_ifBlock_of_embeds hskip ht (embeds_identifier he) (firm_identifier he) hspelled
    hbodies place

/-! ### Loops -/

omit hskip in
theorem takes_space (ht : Stops Text.isSpace t) : space.Takes [' '] t fun _ => True :=
  (Takes.token (run1_append (by simp) (by simp [Text.isSpace]) ht)).mono fun _ _ => trivial

omit hskip in
theorem refuses_paren {α : Type} {f : Lexeme → Matcher α} {c : Char} (hc : isIdentifierChar c)
    (u : List Char) : (scan (literal ['(']) >>= f).Refuses (c :: u) := by
  have hparen : '(' ≠ c := by
    simpa using of_identifierChar (p := fun c => '(' != c) (by decide) hc
  exact (Refuses.scan (literal_ne hparen [] u)).bind

omit hskip in
theorem takes_forTarget {names : List String} (hne : names ≠ [])
    (hnames : ∀ name ∈ names, isIdentifier name.toList) (u : List Char) :
    style.forTarget.Takes (Spell.names names) (' ' :: 'i' :: u)
      fun l => l.chars = Spell.names names := by
  obtain ⟨name, rest, rfl⟩ := List.exists_cons_of_ne_nil hne
  obtain ⟨hname, hrest⟩ := List.forall_mem_cons.mp hnames
  obtain ⟨c, -, more, -, hc, -, hhead, -⟩ := isHeld_names hname hrest
  refine (Takes.lexeme (P := fun _ => True) (Refuses.orElse ?_ ?_)).named _
  · rw [hc]
    exact refuses_paren hhead _
  · exact (Takes.token (nameList_append hne hnames u)).map fun _ _ => trivial

omit hskip in
theorem takes_forPlain {names : List String} (hne : names ≠ [])
    (hnames : ∀ name ∈ names, isIdentifier name.toList) {e : Expr}
    (he : isIdentifier e.source.toList) (u : List Char) :
    style.forPlain.Takes (Spell.names names ++ ([' '] ++ (['i', 'n'] ++ ([' '] ++
      (e.source.toList ++ [' ']))))) ('{' :: u)
      fun l => l.1.chars = Spell.names names ∧ l.2.Spells e := by
  refine Takes.named _ ((takes_forTarget hne hnames _).bind fun target htarget => ?_)
  refine (takes_space (by rfl)).bind fun _ _ => ?_
  refine (Takes.token (keyword_append (by rfl))).bind fun _ _ => ?_
  refine (takes_space ?_).bind fun _ _ => ?_
  · rw [List.append_assoc]
    exact (firm_identifier he _).stops
  · exact (takes_condition (embeds_identifier he) u).map fun iterable hiterable =>
      ⟨htarget, Lexeme.spells_spaced (embeds_identifier he) hiterable⟩

theorem takes_forBlock {names : List String} (hne : names ≠ [])
    (hnames : ∀ name ∈ names, isIdentifier name.toList) {e : Expr}
    (he : isIdentifier e.source.toList) {body : List Node} (hbody : style.Blocks d body)
    (place : Option Location) :
    style.forBlock.Takes (Spell.node d (.each names e body place)) t
      (·.Means (.each names e body place)) := by
  obtain ⟨name, rest, rfl⟩ := List.exists_cons_of_ne_nil hne
  obtain ⟨hname, hrest⟩ := List.forall_mem_cons.mp hnames
  obtain ⟨c, -, more, -, hc, -, hhead, -⟩ := isHeld_names hname hrest
  have htext : Spell.node d (.each (name :: rest) e body place) =
      ['@', 'f', 'o', 'r'] ++ ([' '] ++ ((Spell.names (name :: rest) ++ ([' '] ++ (['i', 'n'] ++
        ([' '] ++ (e.source.toList ++ [' ']))))) ++ Spell.block (Spell.nodes d body))) := by
    rw [Spell.node_each]
    simp
  rw [htext]
  refine Takes.named _ (Takes.offset.skip fun offset _ => ?_)
  refine (Takes.token (keyword_append (by rfl))).bind fun _ _ => ?_
  refine (hskip.space ?_).bind fun _ _ => ?_
  · rw [hc]
    exact firm_of_nameChar (nameChar_of_identifierChar hhead) _
  -- a name begins with no parenthesis, so this is no loop in parentheses
  have hparen : style.forParen.Refuses (Spell.names (name :: rest) ++ ([' '] ++ (['i', 'n'] ++
      ([' '] ++ (e.source.toList ++ [' '])))) ++ (Spell.block (Spell.nodes d body) ++ t)) := by
    rw [hc]
    exact (refuses_paren hhead _).named _
  refine ((hparen.orElse (takes_forPlain hne hnames he _)).named _).bind fun found hfound => ?_
  obtain ⟨target, iterable⟩ := found
  dsimp only
  refine Takes.skip (hskip.nothing (firm_brace _)) fun _ _ => ?_
  exact (hbody t).map fun inside hinside =>
    means_each hne hnames hfound.1 hfound.2 hinside offset place

/-! ### Matches -/

/-- A pattern and the space behind it, which either may take. -/
theorem takes_pattern {pattern : Option Expr}
    (hpattern : ∀ e ∈ pattern, isIdentifier e.source.toList ∧ e.source ≠ "_") (u : List Char) :
    ∃ s s', (pattern.elim ['_'] (·.source.toList)) ++ [' '] = s ++ s' ∧
      (named .pattern (orElse (do let _ ← token .wildcard wildcard; return none)
        (do return some (← patternExpr)))).Takes s (s' ++ '=' :: '>' :: u)
        (MeansPattern · pattern) ∧
      style.skip.Takes s' ('=' :: '>' :: u) fun _ => True := by
  rcases pattern with _ | e
  · refine ⟨['_'], [' '], rfl, Takes.named _ (Takes.orElse ?_), hskip.space (by rfl)⟩
    exact (Takes.token (by rfl)).map fun _ _ => trivial
  · obtain ⟨he, hne⟩ := hpattern e rfl
    refine ⟨e.source.toList ++ [' '], [], (List.append_nil _).symm,
      Takes.named _ (Refuses.orElse ?_ ?_), hskip.nothing (by rfl)⟩
    · rw [List.append_assoc]
      refine (Refuses.token (wildcard_none he fun h => hne ?_)).bind
      rw [← String.ofList_toList (s := e.source), h]
    · exact (takes_patternExpr he u).map fun l hl =>
        Lexeme.spells_spaced (embeds_identifier he) hl

/-- The end of an arm: what separates it from the next one. -/
theorem takes_armEnd {gap : List Char} (hgap : gap = [] ∨ gap = [' ']) {c : Char}
    (hc : isIdentifierChar c ∨ c = '}') (u : List Char) {r : Option Lexeme × List Surface}
    {P : Option Lexeme × List Surface → Prop} (hr : P r) :
    (do
      style.skip
      let _ ← optional (scan (literal [',']))
      style.skip
      return r).Takes gap (c :: u) P := by
  have hfirm : Firm (c :: u) := by
    rcases hc with hc | rfl
    · exact firm_of_nameChar (nameChar_of_identifierChar hc) u
    · rfl
  have hcomma : ',' ≠ c := by
    rcases hc with hc | rfl
    · simpa using of_identifierChar (p := fun c => ',' != c) (by decide) hc
    · decide
  have hrest : (do
      let _ ← optional (scan (literal [',']))
      style.skip
      return r).Takes [] (c :: u) P := by
    refine (Refuses.optional (.inr (Refuses.scan (literal_ne hcomma [] u)))).skip fun _ _ => ?_
    exact (hskip.nothing hfirm).skip fun _ _ => Takes.pure hr
  rcases hgap with rfl | rfl
  · exact (hskip.nothing hfirm).skip fun _ _ => hrest
  · show Takes _ ([' '] ++ []) (c :: u) P
    exact (hskip.space hfirm).bind fun _ _ => hrest

theorem takes_matchArm {pattern : Option Expr} {body : List Node} {gap : List Char}
    (hpattern : ∀ e ∈ pattern, isIdentifier e.source.toList ∧ e.source ≠ "_")
    (hbody : style.Blocks d body) (hgap : gap = [] ∨ gap = [' ']) {c : Char}
    (hc : isIdentifierChar c ∨ c = '}') (u : List Char) :
    style.matchArm.Takes (Spell.arm pattern (Spell.nodes d body) ++ gap) (c :: u)
      (MeansArm · (pattern, body)) := by
  obtain ⟨s, s', htext, htake, hspace⟩ := takes_pattern hskip hpattern
    ([' '] ++ (Spell.block (Spell.nodes d body) ++ gap) ++ c :: u)
  have hall : Spell.arm pattern (Spell.nodes d body) ++ gap =
      s ++ (s' ++ (['=', '>'] ++ ([' '] ++ (Spell.block (Spell.nodes d body) ++ gap)))) := by
    rw [← List.append_assoc s, ← htext]
    cases pattern <;> simp [Spell.arm]
  rw [hall]
  refine Takes.named _ (Takes.bind (P := (MeansPattern · pattern)) ?_ fun l hl => ?_)
  · simpa using htake
  refine hspace.bind fun _ _ => ?_
  refine (Takes.token (literal_append _ _)).bind fun _ _ => ?_
  refine (hskip.space (firm_brace _)).bind fun _ _ => ?_
  refine (hbody _).bind fun inside hinside => ?_
  exact takes_armEnd hskip hgap hc u ⟨hl, hinside⟩

omit hskip in
theorem refuses_patternExpr (u : List Char) : patternExpr.Refuses ('}' :: u) := by
  have hpieces : ∀ p ∈ closedPieces ++ [do let _ ← token .patternCode patternCode],
      p.Refuses ('}' :: u) := by
    intro p hp
    rcases List.mem_append.mp hp with hp | hp
    · exact refuses_closedPieces (by simp [IsFlat]) u p hp
    · rw [List.mem_singleton.mp hp]
      exact (Refuses.token (by rfl)).bind
  exact Refuses.named _ (Refuses.lexeme (Refuses.some1 (Refuses.all hpieces)))

omit hskip in
theorem refuses_matchArm (u : List Char) : style.matchArm.Refuses ('}' :: u) := by
  exact Refuses.named _ (Refuses.bind (Refuses.named _
    ((Refuses.token (by rfl)).bind.both (refuses_patternExpr u).bind)))

omit hskip in
theorem of_armsCanBeSpelled {pattern : Option Expr} {body : List Node}
    {rest : List (Option Expr × List Node)} (h : ArmsCanBeSpelled ((pattern, body) :: rest)) :
    (∀ e ∈ pattern, isIdentifier e.source.toList ∧ e.source ≠ "_") ∧ ArmsCanBeSpelled rest := by
  rcases pattern with _ | e
  · rw [ArmsCanBeSpelled] at h
    exact ⟨nofun, h.2⟩
  · rw [ArmsCanBeSpelled] at h
    refine ⟨fun e' he' => ?_, h.2.2.2⟩
    cases he'
    exact ⟨h.1, h.2.1⟩

omit hskip in
theorem arm_ne_nil (pattern : Option Expr) (inside : List Char) :
    Spell.arm pattern inside ≠ [] := by
  simp [Spell.arm, Spell.block]

omit hskip in
/-- The arms that are left begin with a pattern. -/
theorem head_cases {pattern : Option Expr}
    (hpattern : ∀ e ∈ pattern, isIdentifier e.source.toList ∧ e.source ≠ "_") (body : List Node)
    (rest : List (Option Expr × List Node)) (u : List Char) :
    ∃ c v, Spell.cases d ((pattern, body) :: rest) ++ u = c :: v ∧ isIdentifierChar c := by
  have harm : ∃ c v, Spell.arm pattern (Spell.nodes d body) = c :: v ∧ isIdentifierChar c := by
    rcases pattern with _ | e
    · exact ⟨'_', _, rfl, by decide⟩
    · obtain ⟨c, more, hc, hhead, -⟩ := of_isIdentifier (hpattern e rfl).1
      refine ⟨c, more ++ (" => ".toList ++ Spell.block (Spell.nodes d body)), ?_, ?_⟩
      · rw [Spell.arm, hc]
        rfl
      · simp [isIdentifierChar, hhead]
  obtain ⟨c, v, hv, hc⟩ := harm
  cases rest with
  | nil =>
    refine ⟨c, v ++ u, ?_, hc⟩
    show Spell.arm pattern (Spell.nodes d body) ++ u = _
    rw [hv]
    rfl
  | cons a rest =>
    refine ⟨c, v ++ ' ' :: Spell.cases d (a :: rest) ++ u, ?_, hc⟩
    rw [Spell.cases_cons, hv]
    rfl

theorem takesAll_arms (arms : List (Option Expr × List Node)) (hspelled : ArmsCanBeSpelled arms)
    (hbodies : ∀ a ∈ arms, style.Blocks d a.2) (u : List Char) :
    TakesAll style.matchArm MeansArm (Spell.cases d arms) ('}' :: u) arms := by
  induction arms with
  | nil => exact .nil (.inr (refuses_matchArm u))
  | cons a rest ih =>
    obtain ⟨hbody, hrest⟩ := List.forall_mem_cons.mp hbodies
    obtain ⟨pattern, body⟩ := a
    obtain ⟨hpattern, hmore⟩ := of_armsCanBeSpelled hspelled
    -- what ends an arm is the space in front of the next one, or the closing brace
    cases rest with
    | nil =>
      have harm := takes_matchArm hskip hpattern hbody (.inl rfl) (.inr rfl) u
      rw [List.append_nil] at harm
      have hcases : Spell.cases d [(pattern, body)] =
          Spell.arm pattern (Spell.nodes d body) ++ [] :=
        (List.append_nil _).symm
      rw [hcases]
      exact .cons (arm_ne_nil _ _) harm (.nil (.inr (refuses_matchArm u)))
    | cons a rest =>
      obtain ⟨pattern', body'⟩ := a
      obtain ⟨c, v, hnext, hc⟩ := head_cases (of_armsCanBeSpelled hmore).1 body' rest ('}' :: u)
      have harm := takes_matchArm hskip hpattern hbody (.inr rfl) (.inl hc) v
      rw [← hnext] at harm
      have hcases : Spell.cases d ((pattern, body) :: (pattern', body') :: rest) =
          (Spell.arm pattern (Spell.nodes d body) ++ [' ']) ++
            Spell.cases d ((pattern', body') :: rest) := by
        rw [Spell.cases_cons, List.append_assoc]
        rfl
      rw [hcases]
      exact .cons (by simp) harm (ih hmore hrest)

theorem takes_matchBlock {e : Expr} (he : isIdentifier e.source.toList)
    {arms : List (Option Expr × List Node)} (hspelled : ArmsCanBeSpelled arms)
    (hbodies : ∀ a ∈ arms, style.Blocks d a.2) (place : Option Location) :
    style.matchBlock.Takes (Spell.node d (.cases e arms place)) t
      (·.Means (.cases e arms place)) := by
  have htext : Spell.node d (.cases e arms place) =
      ['@', 'm', 'a', 't', 'c', 'h'] ++ ([' '] ++ ((e.source.toList ++ [' ']) ++ (['{'] ++
        (Spell.cases d arms ++ ['}'])))) := by
    rw [Spell.node_cases]
    simp [Spell.block]
  rw [htext]
  refine Takes.named _ (Takes.offset.skip fun offset _ => ?_)
  refine (Takes.token (keyword_append (by rfl))).bind fun _ _ => ?_
  refine (hskip.space ?_).bind fun _ _ => ?_
  · rw [List.append_assoc, List.append_assoc]
    exact firm_identifier he _
  refine (takes_condition (embeds_identifier he) _).bind fun subject hsubject => ?_
  refine (Takes.scan (literal_append _ _)).bind fun _ _ => ?_
  refine Takes.skip (hskip.nothing ?_) fun _ _ => ?_
  · -- a pattern or the closing brace comes next, and neither is skipped
    cases arms with
    | nil => rfl
    | cons a rest =>
      obtain ⟨c, v, hhead, hc⟩ := head_cases (d := d) (of_armsCanBeSpelled hspelled).1 a.2 rest
        (['}'] ++ t)
      rw [List.append_assoc, hhead]
      exact firm_of_nameChar (nameChar_of_identifierChar hc) v
  refine (takesAll_arms hskip arms hspelled hbodies t).many.bind fun found hfound => ?_
  exact (Takes.token (literal_append _ _)).map fun _ _ =>
    means_cases (Lexeme.spells_spaced (embeds_identifier he) hsubject) hfound offset place

/-! ## Raw output -/

theorem takes_rawOutput {e : Expr} (he : Embeds true e.source.toList) (place : Option Location) :
    style.rawOutput.Takes (Spell.text d (.dynamic e true)) t
      (·.Means (.text (.dynamic e true) place)) := by
  have htext : Spell.text d (.dynamic e true) =
      ['@', 'r', 'a', 'w'] ++ (['('] ++ (e.source.toList ++ [')'])) := by
    simp [Spell.text]
  rw [htext]
  refine Takes.named _ (Takes.offset.skip fun offset _ => ?_)
  refine (Takes.token (keyword_append (by rfl))).bind fun _ _ => ?_
  refine Takes.skip (hskip.nothing (by rfl)) fun _ _ => ?_
  refine (Takes.scan (literal_append _ _)).bind fun _ _ => ?_
  refine (takes_exprBody he.balanced (.inl rfl) _).lexeme.bind fun l hl => ?_
  exact (Takes.token (literal_append _ _)).map fun _ _ =>
    means_raw (Lexeme.spells he hl) offset place

omit hskip in
theorem refuses_rawOutput {x : Char} (hx : 'r' ≠ x) (u : List Char) :
    style.rawOutput.Refuses ('@' :: x :: u) := by
  refine Refuses.named _ (Refuses.offset fun _ => (Refuses.token (keyword_none ?_)).bind)
  simp [hx]

/-! ## Any control block -/

omit hskip in
/-- A control block begins with an at sign and a word that is neither an alternative nor raw output.
-/
theorem head_control (d : Dialect) {n : Node} (hcontrol : n.IsControl) (hn : n.CanBeSpelled) :
    ∃ x u, Spell.node d n = '@' :: x :: u ∧ 'e' ≠ x ∧ 'r' ≠ x := by
  cases n with
  | choice branches place =>
    rw [Node.CanBeSpelled] at hn
    rcases branches with _ | ⟨⟨_ | e, body⟩, rest⟩
    · simp [BranchesCanBeSpelled] at hn
    · simp [BranchesCanBeSpelled] at hn
    · exact ⟨'i', _, rfl, by decide, by decide⟩
  | each => exact ⟨'f', _, rfl, by decide, by decide⟩
  | cases => exact ⟨'m', _, rfl, by decide, by decide⟩
  | _ => exact hcontrol.elim

omit hskip in
theorem refuses_ifBlock {x : Char} (hx : 'i' ≠ x) (u : List Char) :
    style.ifBlock.Refuses ('@' :: x :: u) := by
  refine Refuses.named _ (Refuses.offset fun _ => (Refuses.token (keyword_none ?_)).bind)
  simp [hx]

omit hskip in
theorem refuses_forBlock {x : Char} (hx : 'f' ≠ x) (u : List Char) :
    style.forBlock.Refuses ('@' :: x :: u) := by
  refine Refuses.named _ (Refuses.offset fun _ => (Refuses.token (keyword_none ?_)).bind)
  simp [hx]

omit hskip in
variable (style) in
/-- Neither raw output nor a control block begins without an at sign. -/
theorem refuses_unmarked {c : Char} (hc : '@' ≠ c) (u : List Char) :
    style.rawOutput.Refuses (c :: u) ∧ style.control.Refuses (c :: u) := by
  have hword (word : List Char) : keyword ('@' :: word) (c :: u) = none :=
    keyword_none (by simp [hc])
  refine ⟨Refuses.named _ (Refuses.offset fun _ => (Refuses.token (hword _)).bind),
    Refuses.named _ (Refuses.all ?_)⟩
  simp only [List.forall_mem_cons]
  exact ⟨Refuses.named _ (Refuses.offset fun _ => (Refuses.token (hword _)).bind),
    Refuses.named _ (Refuses.offset fun _ => (Refuses.token (hword _)).bind),
    Refuses.named _ (Refuses.offset fun _ => (Refuses.token (hword _)).bind),
    List.forall_mem_nil _⟩

/-- A control block is read as such, and it is no raw output. -/
theorem takes_control (ht : Follows t) {n : Node} (hcontrol : n.IsControl) (hn : n.CanBeSpelled)
    (hlists : ∀ ns ∈ n.lists, style.Blocks d ns) :
    style.rawOutput.Refuses (Spell.node d n ++ t) ∧
      style.control.Takes (Spell.node d n) t (·.Means n) := by
  constructor
  · obtain ⟨x, u, hu, -, hx⟩ := head_control d hcontrol hn
    rw [hu]
    exact refuses_rawOutput hx _
  cases n with
  | choice branches place =>
    rw [Node.CanBeSpelled] at hn
    have hbodies : ∀ b ∈ branches, style.Blocks d b.2 := fun b hb =>
      hlists b.2 (List.mem_map_of_mem hb)
    exact Takes.named _ (Takes.firstOf (takes_ifBlock hskip ht hn hbodies place))
  | each names e body place =>
    rw [Node.CanBeSpelled] at hn
    obtain ⟨hne, hnames, he, -⟩ := hn
    refine Takes.named _ (Refuses.firstOf (refuses_ifBlock (x := 'f') (by decide) _) ?_)
    exact Takes.firstOf
      (takes_forBlock hskip hne hnames he (hlists body (List.mem_singleton_self body)) place)
  | cases e arms place =>
    rw [Node.CanBeSpelled] at hn
    have hbodies : ∀ a ∈ arms, style.Blocks d a.2 := fun a ha =>
      hlists a.2 (List.mem_map_of_mem ha)
    refine Takes.named _ (Refuses.firstOf (refuses_ifBlock (x := 'm') (by decide) _) ?_)
    refine Refuses.firstOf (refuses_forBlock (x := 'm') (by decide) _) ?_
    exact Takes.firstOf (takes_matchBlock hskip hn.1 hn.2 hbodies place)
  | _ => exact hcontrol.elim

end ControlStyle

end Source

end Stencil
