import Stencil.Plan.Same

/-!
# Trees and plans without places

Trees are compared by what they say, plans by what they do. Both comparisons come down to equality
once everything that does not count is taken away: a tree or a plan is *bare* if it has no places,
and, for a tree, no marks of void elements.

**The same means equal when bare** (`Node.same_iff`, `samePlan_iff`). So being the same is an
equivalence, and what is shown of a pass over trees, that it gives bare results from bare trees, says
how it treats trees that are the same.
-/

namespace Stencil

/-! ## Expressions and contents -/

/-- The expression without its place. -/
def Expr.bare (e : Expr) : Expr :=
  { e with place := none }

theorem Expr.same_iff {a b : Expr} : a.same b = true ↔ a.bare = b.bare := by
  constructor
  · intro h
    have hcode := Expr.same_code h
    simp only [Expr.same, beq_iff_eq] at h
    cases a
    cases b
    cases h
    cases hcode
    rfl
  · intro h
    have hsource : a.bare.source = b.bare.source := by rw [h]
    exact beq_iff_eq.mpr hsource

theorem sameCondition_iff {a b : Option Expr} :
    sameCondition a b = true ↔ a.map Expr.bare = b.map Expr.bare := by
  cases a <;> cases b <;> simp [sameCondition, Expr.same_iff]

mutual

/-- The content without places. -/
def Content.bare : Content → Content
  | .dynamic expr raw => .dynamic expr.bare raw
  | .toggle expr => .toggle expr.bare
  | .joined parts => .joined (bareContents parts)
  | content => content

/-- Contents without places. -/
def bareContents : List Content → List Content
  | [] => []
  | c :: rest => c.bare :: bareContents rest

end

mutual

theorem Content.same_iff {a b : Content} : a.same b = true ↔ a.bare = b.bare := by
  cases a with
  | joined parts =>
    cases b <;> simp [Content.same, Content.bare, sameContents_iff (l := parts)]
  | _ => cases b <;> simp [Content.same, Content.bare, Expr.same_iff]

theorem sameContents_iff {l k : List Content} :
    sameContents l k = true ↔ bareContents l = bareContents k := by
  cases l with
  | nil => cases k <;> simp [sameContents, bareContents]
  | cons a as =>
    cases k <;>
      simp [sameContents, bareContents, Content.same_iff (a := a), sameContents_iff (l := as)]

end

/-- The attribute without places. -/
def Attribute.bare (a : Attribute) : Attribute :=
  ⟨a.name, a.value.bare, none⟩

theorem Attribute.same_iff {a b : Attribute} : a.same b = true ↔ a.bare = b.bare := by
  simp [Attribute.same, Attribute.bare, Content.same_iff]

theorem sameAttributes_iff {as bs : List Attribute} :
    sameAttributes as bs = true ↔ as.map Attribute.bare = bs.map Attribute.bare := by
  induction as generalizing bs with
  | nil => cases bs <;> simp [sameAttributes]
  | cons a as ih => cases bs <;> simp [sameAttributes, Attribute.same_iff, ih]

/-! ## Trees -/

mutual

/-- The node without places. The marks of void elements are kept or taken away. -/
def Node.bare (voids : Bool) : Node → Node
  | .element name attributes children void _ =>
    .element name (attributes.map Attribute.bare) (bareNodes voids children) (voids && void) none
  | .text content _ => .text content.bare none
  | .doctype _ => .doctype none
  | .component reference arguments children _ =>
    .component reference.bare (arguments.map Attribute.bare) (bareNodes voids children) none
  | .choice branches _ => .choice (bareBodies voids branches) none
  | .each names source body _ => .each names source.bare (bareNodes voids body) none
  | .cases subject arms _ => .cases subject.bare (bareBodies voids arms) none
  | .unknown => .unknown

/-- Nodes without places. -/
def bareNodes (voids : Bool) : List Node → List Node
  | [] => []
  | n :: rest => n.bare voids :: bareNodes voids rest

/-- Guarded bodies without places. -/
def bareBodies (voids : Bool) :
    List (Option Expr × List Node) → List (Option Expr × List Node)
  | [] => []
  | (condition, body) :: rest =>
    (condition.map Expr.bare, bareNodes voids body) :: bareBodies voids rest

end

mutual

/-- **Nodes say the same if and only if they are equal when bare.** -/
theorem Node.same_iff {a b : Node} : a.same b = true ↔ a.bare false = b.bare false := by
  cases a with
  | element name attributes children void place =>
    cases b <;>
      simp [Node.same, Node.bare, sameAttributes_iff, sameNodes_iff (l := children), and_assoc]
  | text content place => cases b <;> simp [Node.same, Node.bare, Content.same_iff]
  | doctype place => cases b <;> simp [Node.same, Node.bare]
  | component reference arguments children place =>
    cases b <;> simp [Node.same, Node.bare, Expr.same_iff, sameAttributes_iff,
      sameNodes_iff (l := children), and_assoc]
  | choice branches place =>
    cases b <;> simp [Node.same, Node.bare, sameBranches_iff (l := branches)]
  | each names source body place =>
    cases b <;>
      simp [Node.same, Node.bare, Expr.same_iff, sameNodes_iff (l := body), and_assoc]
  | cases subject arms place =>
    cases b <;> simp [Node.same, Node.bare, Expr.same_iff, sameBranches_iff (l := arms)]
  | unknown => cases b <;> simp [Node.same, Node.bare]

theorem sameNodes_iff {l k : List Node} :
    sameNodes l k = true ↔ bareNodes false l = bareNodes false k := by
  cases l with
  | nil => cases k <;> simp [sameNodes, bareNodes]
  | cons a as =>
    cases k <;> simp [sameNodes, bareNodes, Node.same_iff (a := a), sameNodes_iff (l := as)]

theorem sameBranches_iff {l k : List (Option Expr × List Node)} :
    sameBranches l k = true ↔ bareBodies false l = bareBodies false k := by
  match l, k with
  | [], [] => simp [sameBranches, bareBodies]
  | [], _ :: _ => simp [sameBranches, bareBodies]
  | _ :: _, [] => simp [sameBranches, bareBodies]
  | (condition, body) :: as, (condition', body') :: bs =>
    simp [sameBranches, bareBodies, sameCondition_iff, sameNodes_iff (l := body),
      sameBranches_iff (l := as)]

end

/-! ## Being the same is an equivalence -/

/-- What comes down to equality of something is an equivalence. -/
theorem equivalence_of_iff {α β : Type} {same : α → α → Bool} {f : α → β}
    (h : ∀ {a b}, same a b = true ↔ f a = f b) : Equivalence fun a b => same a b = true where
  refl _ := h.mpr rfl
  symm hab := h.mpr (h.mp hab).symm
  trans hab hbc := h.mpr ((h.mp hab).trans (h.mp hbc))

theorem sameNodes_equivalence : Equivalence fun as bs : List Node => sameNodes as bs = true :=
  equivalence_of_iff sameNodes_iff

theorem sameNodes_trans {as bs cs : List Node} (hab : sameNodes as bs) (hbc : sameNodes bs cs) :
    sameNodes as cs :=
  sameNodes_equivalence.trans hab hbc

theorem sameNodes_of_same {as bs : List Node} (cs : List Node) (hac : sameNodes as cs)
    (hbc : sameNodes bs cs) : sameNodes as bs :=
  sameNodes_equivalence.trans hac (sameNodes_equivalence.symm hbc)

/-! ## Plans -/

/-- The part without its place. -/
def Part.bare : Part → Part
  | .text s => .text s
  | .value expr => .value expr.bare

theorem Part.same_iff {a b : Part} : a.same b = true ↔ a.bare = b.bare := by
  cases a <;> cases b <;> simp [Part.same, Part.bare, Expr.same_iff]

theorem sameParts_iff {as bs : List Part} :
    sameParts as bs = true ↔ as.map Part.bare = bs.map Part.bare := by
  induction as generalizing bs with
  | nil => cases bs <;> simp [sameParts]
  | cons a as ih => cases bs <;> simp [sameParts, Part.same_iff, ih]

/-- An argument without places. -/
def bareArgument (argument : String × Content) : String × Content :=
  (argument.1, argument.2.bare)

theorem sameArguments_iff {as bs : List (String × Content)} :
    sameArguments as bs = true ↔ as.map bareArgument = bs.map bareArgument := by
  induction as generalizing bs with
  | nil => cases bs <;> simp [sameArguments]
  | cons a as ih =>
    cases bs <;> simp [sameArguments, bareArgument, Content.same_iff, ih]

mutual

/-- The operation without places. -/
def Op.bare : Op → Op
  | .literal text => .literal text
  | .escaped expr inAttribute => .escaped expr.bare inAttribute
  | .joined parts => .joined (parts.map Part.bare)
  | .raw expr => .raw expr.bare
  | .branch branches => .branch (bareGuarded branches)
  | .loop names source body => .loop names source.bare (barePlan body)
  | .switch subject arms => .switch subject.bare (bareGuarded arms)
  | .toggle expr body => .toggle expr.bare (barePlan body)
  | .call reference arguments children =>
    .call reference.bare (arguments.map bareArgument) (bareChildren children)

/-- The plan without places. -/
def barePlan : List Op → List Op
  | [] => []
  | op :: rest => op.bare :: barePlan rest

/-- Guarded plans without places. -/
def bareGuarded : List (Option Expr × List Op) → List (Option Expr × List Op)
  | [] => []
  | (condition, body) :: rest =>
    (condition.map Expr.bare, barePlan body) :: bareGuarded rest

/-- The children of a component without places. -/
def bareChildren : Option (List Op) → Option (List Op)
  | none => none
  | some body => some (barePlan body)

end

mutual

theorem Op.same_iff {a b : Op} : a.same b = true ↔ a.bare = b.bare := by
  cases a with
  | literal => cases b <;> simp [Op.same, Op.bare]
  | escaped => cases b <;> simp [Op.same, Op.bare, Expr.same_iff]
  | joined => cases b <;> simp [Op.same, Op.bare, sameParts_iff]
  | raw => cases b <;> simp [Op.same, Op.bare, Expr.same_iff]
  | branch branches => cases b <;> simp [Op.same, Op.bare, sameGuarded_iff (l := branches)]
  | loop names source body =>
    cases b <;> simp [Op.same, Op.bare, Expr.same_iff, samePlan_iff (l := body), and_assoc]
  | switch subject arms =>
    cases b <;> simp [Op.same, Op.bare, Expr.same_iff, sameGuarded_iff (l := arms)]
  | toggle expr body =>
    cases b <;> simp [Op.same, Op.bare, Expr.same_iff, samePlan_iff (l := body)]
  | call reference arguments children =>
    cases b with
    | call reference' arguments' children' =>
      match children, children' with
      | none, none => simp [Op.same, Op.bare, bareChildren, Expr.same_iff, sameArguments_iff]
      | none, some _ => simp [Op.same, Op.bare, bareChildren]
      | some _, none => simp [Op.same, Op.bare, bareChildren]
      | some body, some body' =>
        simp [Op.same, Op.bare, bareChildren, Expr.same_iff, sameArguments_iff,
          samePlan_iff (l := body), and_assoc]
    | _ => cases children <;> simp [Op.same, Op.bare]

/-- **Plans are the same if and only if they are equal when bare.** -/
theorem samePlan_iff {l k : List Op} : samePlan l k = true ↔ barePlan l = barePlan k := by
  cases l with
  | nil => cases k <;> simp [samePlan, barePlan]
  | cons a as =>
    cases k <;> simp [samePlan, barePlan, Op.same_iff (a := a), samePlan_iff (l := as)]

theorem sameGuarded_iff {l k : List (Option Expr × List Op)} :
    sameGuarded l k = true ↔ bareGuarded l = bareGuarded k := by
  match l, k with
  | [], [] => simp [sameGuarded, bareGuarded]
  | [], _ :: _ => simp [sameGuarded, bareGuarded]
  | _ :: _, [] => simp [sameGuarded, bareGuarded]
  | (condition, body) :: as, (condition', body') :: bs =>
    simp [sameGuarded, bareGuarded, sameCondition_iff, samePlan_iff (l := body),
      sameGuarded_iff (l := as)]

end

end Stencil
