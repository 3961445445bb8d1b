import Stencil.Proofs.Agreement.Expressions
import Stencil.Proofs.Results
import Stencil.Proofs.Shape.Formed

/-!
# What surface trees mean

A surface node means a node if it is read as one that says the same. Texts that can be spelled side
by side stay apart when they are read, so lists of nodes mean what their nodes mean.
-/

namespace Stencil

/-! ## Nodes that say the same -/

theorem Node.literal?_of_same {m n : Node} (h : m.same n) : m.literal? = n.literal? := by
  cases m <;> cases n <;> simp_all [Node.same, Node.literal?]
  case text.text a _ b _ =>
    cases a <;> cases b <;> simp_all [Content.same, Content.literal?]

theorem sameBranches_append {as bs cs ds : List (Option Expr × List Node)}
    (hab : sameBranches as bs) (hcd : sameBranches cs ds) : sameBranches (as ++ cs) (bs ++ ds) := by
  induction as generalizing bs with
  | nil =>
    cases bs with
    | nil => exact hcd
    | cons b bs => simp [sameBranches] at hab
  | cons a as ih =>
    cases bs with
    | nil => simp [sameBranches] at hab
    | cons b bs =>
      simp only [sameBranches, Bool.and_eq_true, List.cons_append] at hab ⊢
      exact ⟨hab.1, ih hab.2⟩

/-! ## Nodes side by side -/

theorem Node.literal?_ne_empty {n : Node} (h : n.CanBeSpelled) : n.literal? ≠ some "" := by
  cases n with
  | text content place =>
    cases content with
    | literal text =>
      rw [Node.CanBeSpelled] at h
      simpa [Node.literal?, Content.literal?] using h
    | _ => simp [Node.literal?, Content.literal?]
  | _ => simp [Node.literal?]

theorem separated_of_canBeSpelled {ns : List Node} (h : NodesCanBeSpelled ns) : Separated ns := by
  induction ns with
  | nil => exact .nil
  | cons n rest ih =>
    rw [NodesCanBeSpelled] at h
    obtain ⟨hn, happart, hrest⟩ := h
    refine (ih hrest).cons (Node.literal?_ne_empty hn) fun k hk => happart.imp_right fun hnone => ?_
    rw [Option.mem_def] at hk
    rwa [hk] at hnone

/-- Nodes that say the same as nodes that are separated are separated, too. -/
theorem separated_of_same {ms ns : List Node} (hns : Separated ns) (h : sameNodes ms ns) :
    Separated ms := by
  induction ms generalizing ns with
  | nil => exact .nil
  | cons m ms ih =>
    cases ns with
    | nil => simp [sameNodes] at h
    | cons n ns =>
      simp only [sameNodes, Bool.and_eq_true] at h
      have hliteral := Node.literal?_of_same h.1
      have hne := hns.not_empty n (List.mem_cons_self ..)
      refine (ih hns.tail h.2).cons (hliteral ▸ hne) fun k hk => ?_
      cases ms with
      | nil => cases hk
      | cons k' ms =>
        cases hk
        cases ns with
        | nil => simp [sameNodes] at h
        | cons n' ns =>
          simp only [sameNodes, Bool.and_eq_true] at h
          rw [hliteral, Node.literal?_of_same h.2.1]
          exact hns.head n' rfl

theorem mergeTexts_of_separated {nodes : List Node} (h : Separated nodes) :
    mergeTexts nodes = nodes :=
  (joins_mergeTexts nodes).eq_of_separated h.not_empty h.not_adjacent

namespace Source

theorem childNodes_map (nodes : List Node) : childNodes (nodes.map .node) = mergeTexts nodes := by
  rw [childNodes, List.map_map]
  exact congrArg mergeTexts (List.map_id nodes)

theorem trimLast_map (nodes : List Node) : trimLast (nodes.map .node) = nodes.map .node := by
  induction nodes with
  | nil => rfl
  | cons n rest ih =>
    cases rest with
    | nil => rfl
    | cons m rest => exact congrArg (Item.node n :: ·) ih

theorem blockNodes_map (nodes : List Node) : blockNodes (nodes.map .node) = mergeTexts nodes := by
  have hfirst : trimFirst (nodes.map .node) = nodes.map .node := by
    cases nodes <;> rfl
  rw [blockNodes, hfirst, trimLast_map, childNodes_map]

/-! ## Surface nodes -/

/-- The surface node is read as a node that says the same. -/
def Surface.Means (s : Surface) (n : Node) : Prop :=
  ∀ source, ∃ m : Node, readNode source s = .ok [.node m] ∧ m.same n

/-- The surface attribute is read as an attribute that says the same. -/
def SurfaceAttribute.Means (s : SurfaceAttribute) (a : Attribute) : Prop :=
  ∀ source, ∃ b : Attribute, readAttribute source s = .ok b ∧ b.same a

/-- The surface nodes are read as nodes that say the same, among children and in a body. -/
def Mean (surface : List Surface) (nodes : List Node) : Prop :=
  ∀ source, ∃ items, readNodes source surface = .ok items ∧
    sameNodes (childNodes items) nodes ∧ sameNodes (blockNodes items) nodes

theorem mean_of_forall₂ {surface : List Surface} {nodes : List Node}
    (h : List.Forall₂ Surface.Means surface nodes) (hnodes : Separated nodes) :
    Mean surface nodes := by
  intro source
  have hread : ∃ ms : List Node, readNodes source surface = .ok (ms.map .node) ∧
      sameNodes ms nodes := by
    clear hnodes
    induction h with
    | nil => exact ⟨[], by rw [readNodes]; rfl, by rw [sameNodes]⟩
    | cons hs _ ih =>
      obtain ⟨m, hm, hsame⟩ := hs source
      obtain ⟨ms, hms, hrest⟩ := ih
      refine ⟨m :: ms, ?_, ?_⟩
      · rw [readNodes, hm, hms]
        rfl
      · rw [sameNodes, hsame, hrest]
        rfl
  obtain ⟨ms, hms, hsame⟩ := hread
  -- separated nodes are not merged, neither as children nor in a body
  have hmerge := mergeTexts_of_separated (separated_of_same hnodes hsame)
  refine ⟨_, hms, ?_, ?_⟩
  · rw [childNodes_map, hmerge]
    exact hsame
  · rw [blockNodes_map, hmerge]
    exact hsame

theorem mapM_readAttribute {surface : List SurfaceAttribute} {attributes : List Attribute}
    (h : List.Forall₂ SurfaceAttribute.Means surface attributes) (source : List Char) :
    ∃ bs, surface.mapM (readAttribute source) = .ok bs ∧ sameAttributes bs attributes := by
  induction h with
  | nil => exact ⟨[], rfl, by rw [sameAttributes]⟩
  | cons hs _ ih =>
    obtain ⟨b, hb, hsame⟩ := hs source
    obtain ⟨bs, hbs, hrest⟩ := ih
    refine ⟨b :: bs, ?_, ?_⟩
    · rw [List.mapM_cons, hb, hbs]
      rfl
    · rw [sameAttributes, hsame, hrest]
      rfl

/-! ### Texts -/

theorem means_quoted {l : Lexeme} {text : String} (h : l.chars = Spell.quote text.toList)
    (place : Option Location) : (Surface.quoted l).Means (.text (.literal text) place) := by
  intro source
  refine ⟨_, by rw [readNode], ?_⟩
  rw [Lexeme.decoded, h, unquote_quote, String.ofList_toList]
  simp [Node.same, Content.same]

theorem means_splice {l : Lexeme} {e : Expr} (h : l.Spells e) (offset : Nat)
    (place : Option Location) :
    (Surface.splice offset l).Means (.text (.dynamic e false) place) := by
  intro source
  obtain ⟨e', he, hsame⟩ := h source
  refine ⟨.text (.dynamic e' false) (locate source offset), ?_, ?_⟩
  · rw [readNode, he]
    rfl
  · simp [Node.same, Content.same, Expr.same, hsame]

theorem means_raw {l : Lexeme} {e : Expr} (h : l.Spells e) (offset : Nat)
    (place : Option Location) : (Surface.raw offset l).Means (.text (.dynamic e true) place) := by
  intro source
  obtain ⟨e', he, hsame⟩ := h source
  refine ⟨.text (.dynamic e' true) (locate source offset), ?_, ?_⟩
  · rw [readNode, he]
    rfl
  · simp [Node.same, Content.same, Expr.same, hsame]

theorem means_doctype (offset : Nat) (place : Option Location) :
    (Surface.doctype offset).Means (.doctype place) := by
  intro source
  exact ⟨_, by rw [readNode], by rw [Node.same]⟩

/-! ### Control blocks -/

/-- A test and its surface nodes mean a condition and its body. -/
def MeansBranch (s : Lexeme × List Surface) (b : Expr × List Node) : Prop :=
  s.1.Spells b.1 ∧ Mean s.2 b.2

/-- A pattern means another; the wildcard means none. -/
def MeansPattern : Option Lexeme → Option Expr → Prop
  | none, none => True
  | some l, some e => l.Spells e
  | _, _ => False

/-- A pattern and its surface nodes mean a pattern and its body. -/
def MeansArm (s : Option Lexeme × List Surface) (b : Option Expr × List Node) : Prop :=
  MeansPattern s.1 b.1 ∧ Mean s.2 b.2

theorem readBranches_mean {surface : List (Lexeme × List Surface)}
    {branches : List (Expr × List Node)} (h : List.Forall₂ MeansBranch surface branches)
    (source : List Char) : ∃ bs, readBranches source surface = .ok bs ∧
      sameBranches bs (branches.map fun b => (some b.1, b.2)) := by
  induction h with
  | nil => exact ⟨[], by rw [readBranches], by simp [sameBranches]⟩
  | cons hs _ ih =>
    obtain ⟨e, he, hsource⟩ := hs.1 source
    obtain ⟨items, hitems, -, hsame⟩ := hs.2 source
    obtain ⟨bs, hbs, hrest⟩ := ih
    refine ⟨(some e, blockNodes items) :: bs, ?_, ?_⟩
    · rw [readBranches, he, hitems, hbs]
      rfl
    · simp [sameBranches, sameCondition, Expr.same, hsource, hsame, hrest]

theorem readArms_mean {surface : List (Option Lexeme × List Surface)}
    {arms : List (Option Expr × List Node)} (h : List.Forall₂ MeansArm surface arms)
    (source : List Char) :
    ∃ bs, readArms source surface = .ok bs ∧ sameBranches bs arms := by
  induction h with
  | nil => exact ⟨[], by rw [readArms], by simp [sameBranches]⟩
  | @cons s b _ _ hs _ ih =>
    obtain ⟨items, hitems, -, hsame⟩ := hs.2 source
    obtain ⟨bs, hbs, hrest⟩ := ih
    obtain ⟨l, surface⟩ := s
    obtain ⟨pattern, body⟩ := b
    rcases l with _ | l <;> rcases pattern with _ | e
    · refine ⟨(none, blockNodes items) :: bs, ?_, ?_⟩
      · rw [readArms, hitems, hbs]
        rfl
      · simp [sameBranches, sameCondition, hsame, hrest]
    · exact hs.1.elim
    · exact hs.1.elim
    · obtain ⟨e', he, hsource⟩ := (show l.Spells e from hs.1) source
      refine ⟨(some e', blockNodes items) :: bs, ?_, ?_⟩
      · rw [readArms, he, hitems, hbs]
        rfl
      · simp [sameBranches, sameCondition, Expr.same, hsource, hsame, hrest]

/-- The surface nodes without a condition mean the body without one, if there is one. -/
def MeansLast : Option (List Surface) → Option (List Node) → Prop
  | none, none => True
  | some s, some body => Mean s body
  | _, _ => False

theorem means_choice {surface : List (Lexeme × List Surface)} {branches : List (Expr × List Node)}
    {surfaceLast : Option (List Surface)} {last : Option (List Node)}
    (h : List.Forall₂ MeansBranch surface branches) (hlast : MeansLast surfaceLast last)
    (offset : Nat) (place : Option Location) :
    (Surface.choice offset surface surfaceLast).Means
      (.choice (branches.map (fun b => (some b.1, b.2)) ++ (last.map (none, ·)).toList) place) := by
  intro source
  obtain ⟨bs, hbs, hsame⟩ := readBranches_mean h source
  rcases surfaceLast with _ | s <;> rcases last with _ | body
  · refine ⟨.choice bs (locate source offset), ?_, ?_⟩
    · rw [readNode, hbs]
      simp [bind, Except.bind, pure, Except.pure]
    · simpa [Node.same] using hsame
  · exact hlast.elim
  · exact hlast.elim
  · obtain ⟨items, hitems, -, hbody⟩ := (show Mean s body from hlast) source
    refine ⟨.choice (bs ++ [(none, blockNodes items)]) (locate source offset), ?_, ?_⟩
    · rw [readNode, hbs]
      simp [bind, Except.bind, pure, Except.pure, hitems]
    · rw [Node.same]
      exact sameBranches_append hsame (by simp [sameBranches, sameCondition, hbody])

theorem means_each {names iterable : Lexeme} {surface : List Surface} {ns : List String} {e : Expr}
    {body : List Node} (hne : ns ≠ []) (hnames : ∀ name ∈ ns, isIdentifier name.toList)
    (hchars : names.chars = Spell.names ns) (he : iterable.Spells e) (hbody : Mean surface body)
    (offset : Nat) (place : Option Location) :
    (Surface.each offset names iterable surface).Means (.each ns e body place) := by
  intro source
  obtain ⟨e', he', hsource⟩ := he source
  obtain ⟨items, hitems, -, hsame⟩ := hbody source
  refine ⟨.each ns e' (blockNodes items) (locate source offset), ?_, ?_⟩
  · rw [readNode, he', hitems, hchars, loopNames_names hne hnames]
    rfl
  · simp [Node.same, Expr.same, hsource, hsame]

theorem means_cases {subject : Lexeme} {surface : List (Option Lexeme × List Surface)} {e : Expr}
    {arms : List (Option Expr × List Node)} (he : subject.Spells e)
    (harms : List.Forall₂ MeansArm surface arms) (offset : Nat) (place : Option Location) :
    (Surface.cases offset subject surface).Means (.cases e arms place) := by
  intro source
  obtain ⟨e', he', hsource⟩ := he source
  obtain ⟨bs, hbs, hsame⟩ := readArms_mean harms source
  refine ⟨.cases e' bs (locate source offset), ?_, ?_⟩
  · rw [readNode, he', hbs]
    rfl
  · simp [Node.same, Expr.same, hsource, hsame]

/-! ### Elements and components -/

theorem isComponentName_of_wordName {s : List Char} (h : IsWordName s) :
    isComponentName s = isCapitalized s := by
  have hpoint : '.' ∉ s := by
    obtain ⟨c, more, rfl, hc, hmore⟩ := h
    intro hmem
    rcases List.mem_cons.mp hmem with rfl | hmem
    · exact absurd hc (by decide)
    · exact absurd (hmore _ hmem) (by decide)
  rw [isComponentName, splitOnChar_single hpoint, areComponentParts]

/-- The name of a component is an expression, too. -/
theorem isIdentifier_capital {s : List Char} (h : isCapitalName s) : isIdentifier s := by
  obtain ⟨c, more, rfl, hc, hmore⟩ := of_isShaped h
  simp only [isIdentifier, isShaped, Bool.and_eq_true, List.all_eq_true]
  refine ⟨?_, fun d hd => ?_⟩
  · simp only [isCapital] at hc
    simp [Text.isNameHead, Text.isAsciiLetter, hc]
  · have hd := hmore d hd
    rw [Bool.or_eq_true] at hd
    rcases hd with hd | hd <;> simp [Text.isNameHead, hd]

theorem isComponentName_capital {s : List Char} (h : isCapitalName s) : isComponentName s := by
  have hchars := identifierChars (isIdentifier_capital h)
  rw [isComponentName_of_wordName (isWordName_capital h)]
  obtain ⟨c, more, rfl, hc, -⟩ := of_isShaped h
  simp only [isCapitalized, isWordWith, Bool.and_eq_true, List.all_eq_true]
  refine ⟨by simpa [isCapital] using hc, fun d hd => ?_⟩
  exact of_identifierChar (by decide) (hchars d (List.mem_cons_of_mem _ hd))

theorem isComponentName_plain {s : List Char} (h : isPlainName s) : isComponentName s = false := by
  rw [isComponentName_of_wordName (isWordName_plain h)]
  obtain ⟨c, more, rfl, hc, hmore⟩ := of_isShaped h
  have hsmall : ¬ (c ≤ 'Z') := by
    simp only [isSmall, Bool.and_eq_true, decide_eq_true_eq] at hc
    exact fun hle => absurd (Char.le_trans hc.1 hle) (by decide)
  simp [isCapitalized, isWordWith, hsmall]

variable {l : Lexeme} {surface : List SurfaceAttribute} {attributes : List Attribute}
  {inside : List Surface} {children : List Node} {closing : Option Lexeme}

/-- A surface element is read as what its name makes of its attributes and its children. -/
theorem readNode_element (hattributes : List.Forall₂ SurfaceAttribute.Means surface attributes)
    (hchildren : Mean inside children) (hclosing : ∀ c ∈ closing, c.chars = l.chars) (offset : Nat)
    (source : List Char) :
    ∃ bs ms, sameAttributes bs attributes ∧ sameNodes ms children ∧
      readNode source (.element offset l [] surface inside closing) = (do
        return [.node (← makeElement source offset l bs ms)]) := by
  obtain ⟨bs, hbs, hsame⟩ := mapM_readAttribute hattributes source
  obtain ⟨items, hitems, hnodes, -⟩ := hchildren source
  have hcheck : checkClosing source l closing = .ok () := by
    cases closing with
    | none => rfl
    | some c => simp [checkClosing, hclosing c rfl]
  refine ⟨bs, childNodes items, hsame, hnodes, ?_⟩
  rw [readNode, readAttributes, hbs, hitems, hcheck]
  rfl

theorem means_element {name : String} (hname : isPlainName name.toList)
    (hl : l.chars = name.toList)
    (hattributes : List.Forall₂ SurfaceAttribute.Means surface attributes)
    (hchildren : Mean inside children) (hclosing : ∀ c ∈ closing, c.chars = l.chars) (offset : Nat)
    (void : Bool) (place : Option Location) :
    (Surface.element offset l [] surface inside closing).Means
      (.element name attributes children void place) := by
  intro source
  obtain ⟨bs, ms, hsame, hnodes, hread⟩ :=
    readNode_element hattributes hchildren hclosing offset source
  refine ⟨.element l.text bs ms false (locate source offset), ?_, ?_⟩
  · rw [hread, makeElement, hl, isComponentName_plain hname]
    rfl
  · simp [Node.same, Lexeme.text, hl, hsame, hnodes]

theorem means_component {reference : Expr} (hname : isCapitalName reference.source.toList)
    (hl : l.chars = reference.source.toList)
    (hattributes : List.Forall₂ SurfaceAttribute.Means surface attributes)
    (hchildren : Mean inside children) (hclosing : ∀ c ∈ closing, c.chars = l.chars) (offset : Nat)
    (place : Option Location) :
    (Surface.element offset l [] surface inside closing).Means
      (.component reference attributes children place) := by
  intro source
  obtain ⟨bs, ms, hsame, hnodes, hread⟩ :=
    readNode_element hattributes hchildren hclosing offset source
  obtain ⟨e, he, hsource⟩ := Lexeme.spells
    (embeds_identifier (isIdentifier_capital hname)) hl source
  refine ⟨.component e bs ms (locate source offset), ?_, ?_⟩
  · rw [hread, makeElement, hl, isComponentName_capital hname, he]
    rfl
  · simp [Node.same, Expr.same, hsource, hsame, hnodes]

end Source

end Stencil
