import Stencil.Proofs.Layout.Trim

/-!
# Reading two surface trees alike

Two surface trees of two sources are alike if whatever the one is read as, the other is read as
something that says the same. The surface trees of two sources that differ in white space are found
at different offsets, so nothing is asked of offsets. Of expressions only what is left after
trimming counts.
-/

namespace Stencil.Source

open Text

/-- If there is a result on the one side, there is one on the other, and they are related. -/
def Rereads {α β : Type} (R : α → β → Prop) (r : Except SourceError α) (r' : Except SourceError β) :
    Prop :=
  ∀ a, r = .ok a → ∃ b, r' = .ok b ∧ R a b

namespace Rereads

variable {α β γ δ : Type} {R : α → β → Prop} {S : γ → δ → Prop} {r : Except SourceError α}
  {r' : Except SourceError β} {f : α → Except SourceError γ} {g : β → Except SourceError δ}

protected theorem pure {a : α} {b : β} (h : R a b) : Rereads R (pure a) (pure b) := by
  intro a' ha
  cases ha
  exact ⟨b, rfl, h⟩

protected theorem bind (h : Rereads R r r') (hf : ∀ a b, R a b → Rereads S (f a) (g b)) :
    Rereads S (r >>= f) (r' >>= g) := by
  intro c hc
  obtain ⟨a, ha, hc⟩ := bind_eq_ok.mp hc
  obtain ⟨b, hb, hab⟩ := h a ha
  obtain ⟨d, hd, hcd⟩ := hf a b hab c hc
  exact ⟨d, bind_eq_ok.mpr ⟨b, hb, hd⟩, hcd⟩

theorem mono {R' : α → β → Prop} (h : Rereads R r r') (hR : ∀ a b, R a b → R' a b) :
    Rereads R' r r' := by
  intro a ha
  obtain ⟨b, hb, hab⟩ := h a ha
  exact ⟨b, hb, hR a b hab⟩

protected theorem mapM {items : List γ} {items' : List δ} {f : γ → Except SourceError α}
    {g : δ → Except SourceError β} (h : List.Forall₂ (fun c d => Rereads R (f c) (g d)) items items') :
    Rereads (List.Forall₂ R) (items.mapM f) (items'.mapM g) := by
  induction h with
  | nil => exact .pure .nil
  | cons hcd _ ih =>
    rw [List.mapM_cons, List.mapM_cons]
    exact hcd.bind fun _ _ hab => ih.bind fun _ _ hrest => .pure (.cons hab hrest)

end Rereads

/-! ## Surface trees -/

section

variable (source source' : List Char)

/-- The surface nodes are read as items that say the same. -/
def AlikeNode (s s' : Surface) : Prop :=
  Rereads SameItems (readNode source s) (readNode source' s')

/-- The lists of surface nodes are read as items that say the same. -/
def AlikeNodes (ss ss' : List Surface) : Prop :=
  Rereads SameItems (readNodes source ss) (readNodes source' ss')

/-- In the body of a control block the surface nodes say the same. -/
def AlikeBody (ss ss' : List Surface) : Prop :=
  Rereads (fun items items' => sameNodes (blockNodes items) (blockNodes items'))
    (readNodes source ss) (readNodes source' ss')

/-- The second list is read as the items of the first one, but for blanks at its end. -/
def AlikePadded (ss ss' : List Surface) : Prop :=
  Rereads (fun items items' => EndPadded items items' ∧ (items = [] → ss = []))
    (readNodes source ss) (readNodes source' ss')

/-- The attributes are read as attributes that say the same. -/
def AlikeAttribute (a a' : SurfaceAttribute) : Prop :=
  Rereads (fun b b' => b.same b') (readAttribute source a) (readAttribute source' a')

/-- The values are read as contents that say the same. -/
def AlikeValue (v v' : SurfaceValue) : Prop :=
  ∀ name name', Rereads (fun c c' => c.same c') (readValue source name (some v))
    (readValue source' name' (some v'))

end

/-- The surface node is read as one node, and not as plain text. -/
def OneNode (s : Surface) : Prop :=
  ∀ source items, readNode source s = .ok items → ∃ n, items = [.node n]

/-- What is left after trimming is the same. -/
def SameCode (l l' : Lexeme) : Prop :=
  trim l.chars = trim l'.chars

variable {source source' : List Char}

theorem rereads_code {l l' : Lexeme} (h : SameCode l l') :
    Rereads (fun e e' => e.same e') (readExpr source l) (readExpr source' l') := by
  intro e he
  obtain ⟨hsource, hne, -⟩ := Expr.ofSource_eq_ok he
  have hchars : e.source.toList = trim l.chars := by
    rw [hsource, String.toList_ofList, Lexeme.text, String.toList_ofList]
  obtain ⟨e', he', hsame⟩ := Lexeme.spells_of_trim (l := l')
    (fun hnil => hne (String.toList_eq_nil_iff.mp hnil)) (h.symm.trans hchars.symm) source'
  exact ⟨e', he', by simp [Expr.same, hsame]⟩

/-! ### Lists -/

theorem alikeNodes_nil : AlikeNodes source source' [] [] := by
  rw [AlikeNodes, readNodes, readNodes]
  exact .pure .nil

theorem AlikeNode.cons {s s' : Surface} {ss ss' : List Surface} (h : AlikeNode source source' s s')
    (hrest : AlikeNodes source source' ss ss') : AlikeNodes source source' (s :: ss) (s' :: ss') := by
  rw [AlikeNodes, readNodes, readNodes]
  exact h.bind fun _ _ hab => hrest.bind fun _ _ hcd => .pure (List.rel_append hab hcd)

theorem AlikeNodes.body {ss ss' : List Surface} (h : AlikeNodes source source' ss ss') :
    AlikeBody source source' ss ss' :=
  h.mono fun _ _ => sameNodes_blockNodes

theorem AlikePadded.body {ss ss' : List Surface} (h : AlikePadded source source' ss ss') :
    AlikeBody source source' ss ss' :=
  h.mono fun _ _ h => sameNodes_endPadded h.1

theorem Surface.readNodes_single (source : List Char) (s : Surface) :
    readNodes source [s] = readNode source s := by
  rw [readNodes, readNodes]
  cases readNode source s with
  | error e => rfl
  | ok items => exact congrArg Except.ok (List.append_nil items)

/-- Blanks that stand alone. -/
theorem alikePadded_alone {l : Lexeme} (hl : ∀ c ∈ l.chars, isBlank c = true) :
    AlikePadded source source' [] [.plain l] := by
  rw [AlikePadded, Surface.readNodes_single, readNodes, readNode]
  exact .pure ⟨.alone _ (trimEnd_collapse_blank hl), fun _ => rfl⟩

/-- Blanks that extend plain text. -/
theorem alikePadded_plain {l l' : Lexeme} {w : List Char} (hw : ∀ c ∈ w, isBlank c = true)
    (hl : l'.chars = l.chars ++ w) : AlikePadded source source' [.plain l] [.plain l'] := by
  rw [AlikePadded, Surface.readNodes_single, Surface.readNodes_single, readNode, readNode, hl]
  exact .pure ⟨.plain _ _ (trimEnd_collapse hw l.chars).symm, fun h => by cases h⟩

/-- Blanks behind a node. -/
theorem AlikeNode.padded_alone {s s' : Surface} (h : AlikeNode source source' s s') (hs : OneNode s)
    {l : Lexeme} (hl : ∀ c ∈ l.chars, isBlank c = true) :
    AlikePadded source source' [s] [s', .plain l] := by
  intro items hitems
  rw [Surface.readNodes_single] at hitems
  obtain ⟨n, rfl⟩ := hs source items hitems
  obtain ⟨items', hitems', hsame⟩ := h _ hitems
  cases hsame with
  | @cons _ b _ _ hb hnil =>
  cases hnil
  rcases b with n' | ⟨t, _⟩
  · refine ⟨[.node n', .plain (collapse l.chars) (locate source' l.offset)], ?_,
      .behind _ hb (trimEnd_collapse_blank hl), fun h => by cases h⟩
    rw [readNodes, hitems', Surface.readNodes_single, readNode]
    rfl
  · exact hb.elim

theorem AlikeNode.padded {s s' : Surface} {ss ss' : List Surface}
    (h : AlikeNode source source' s s') (hne : ss ≠ [])
    (hrest : AlikePadded source source' ss ss') : AlikePadded source source' (s :: ss) (s' :: ss') := by
  rw [AlikePadded, readNodes, readNodes]
  refine h.bind fun as bs hab => hrest.bind fun cs ds hcd => .pure ?_
  have hne : cs ≠ [] := fun hnil => hne (hcd.2 hnil)
  exact ⟨.append hab hne hcd.1, fun hnil => (hne (List.append_eq_nil_iff.mp hnil).2).elim⟩

/-- Blanks in front of a node, or alone. -/
theorem alikeBody_blank {ss ss' : List Surface} (h : AlikeNodes source source' ss ss')
    (hhead : ∀ s ∈ ss.head?, OneNode s) {l : Lexeme} (hl : ∀ c ∈ l.chars, isBlank c = true) :
    AlikeBody source source' ss (.plain l :: ss') := by
  have hblank : trimStart (collapse l.chars) = [] := trimStart_collapse_blank hl
  intro items hitems
  obtain ⟨items', hitems', hsame⟩ := h items hitems
  refine ⟨.plain (collapse l.chars) (locate source' l.offset) :: items', ?_,
    sameNodes_startPadded ?_⟩
  · rw [readNodes, readNode, hitems']
    rfl
  -- the blanks are trimmed away: alone in the body, or in front of the one node that the first
  -- piece makes
  cases ss with
  | nil =>
    rw [readNodes] at hitems
    cases hitems
    cases hsame
    exact .alone _ hblank
  | cons s ss =>
    rw [readNodes] at hitems
    obtain ⟨first, hfirst, hitems⟩ := bind_eq_ok.mp hitems
    obtain ⟨rest, -, hitems⟩ := bind_eq_ok.mp hitems
    obtain ⟨n, rfl⟩ := hhead s rfl source first hfirst
    cases hitems
    cases hsame with
    | @cons _ b _ bs hb hsame =>
    rcases b with n' | ⟨t, _⟩
    · exact .before _ hblank hb hsame
    · exact hb.elim

/-- Blanks in front of plain text. -/
theorem alikeBody_plain {ss ss' : List Surface} (h : AlikeNodes source source' ss ss')
    {l l' : Lexeme} {w : List Char} (hw : ∀ c ∈ w, isBlank c = true)
    (hl : l'.chars = w ++ l.chars) :
    AlikeBody source source' (.plain l :: ss) (.plain l' :: ss') := by
  rw [AlikeBody, readNodes, readNodes, readNode, readNode, hl]
  refine Rereads.bind (R := fun a b => a = [.plain (collapse l.chars) (locate source l.offset)] ∧
    b = [.plain (collapse (w ++ l.chars)) (locate source' l'.offset)]) (.pure ⟨rfl, rfl⟩) ?_
  rintro _ _ ⟨rfl, rfl⟩
  refine h.bind fun _ _ hsame => .pure (sameNodes_startPadded ?_)
  exact .plain _ _ (trimStart_collapse hw l.chars).symm hsame

/-! ### Nodes -/

theorem alike_comment : AlikeNode source source' .comment .comment := by
  rw [AlikeNode, readNode, readNode]
  exact .pure .nil

theorem alike_doctype (o o' : Nat) : AlikeNode source source' (.doctype o) (.doctype o') := by
  rw [AlikeNode, readNode, readNode]
  refine .pure (.cons ?_ .nil)
  show Node.same _ _ = true
  rw [Node.same]

theorem AlikeNodes.group {ss ss' : List Surface} (h : AlikeNodes source source' ss ss') :
    AlikeNode source source' (.group ss) (.group ss') := by
  rw [AlikeNode, readNode, readNode]
  exact h

theorem SameCode.raw {l l' : Lexeme} (h : SameCode l l') (o o' : Nat) :
    AlikeNode source source' (.raw o l) (.raw o' l') := by
  rw [AlikeNode, readNode, readNode]
  refine (rereads_code h).bind fun e e' he => .pure (.cons ?_ .nil)
  show Node.same _ _ = true
  simp [Node.same, Content.same, he]

theorem SameCode.splice {l l' : Lexeme} (h : SameCode l l') (o o' : Nat) :
    AlikeNode source source' (.splice o l) (.splice o' l') := by
  rw [AlikeNode, readNode, readNode]
  refine (rereads_code h).bind fun e e' he => .pure (.cons ?_ .nil)
  show Node.same _ _ = true
  simp [Node.same, Content.same, he]

theorem alike_quoted {l l' : Lexeme} (h : l.chars = l'.chars) :
    AlikeNode source source' (.quoted l) (.quoted l') := by
  rw [AlikeNode, readNode, readNode, Lexeme.decoded, Lexeme.decoded, h]
  refine .pure (.cons ?_ .nil)
  show Node.same _ _ = true
  simp [Node.same, Content.same]

theorem alike_plain {l l' : Lexeme} (h : l.chars = l'.chars) :
    AlikeNode source source' (.plain l) (.plain l') := by
  rw [AlikeNode, readNode, readNode, h]
  exact .pure (.cons rfl .nil)

/-! ### Control blocks -/

/-- The conditions and the bodies behind them are alike. -/
def AlikeBranch (source source' : List Char) (b b' : Lexeme × List Surface) : Prop :=
  SameCode b.1 b'.1 ∧ AlikeBody source source' b.2 b'.2

/-- The patterns, if there are any, and the bodies behind them are alike. -/
def AlikeArm (source source' : List Char) (b b' : Option Lexeme × List Surface) : Prop :=
  Option.Rel SameCode b.1 b'.1 ∧ AlikeBody source source' b.2 b'.2

theorem rereads_branches {bs bs' : List (Lexeme × List Surface)}
    (h : List.Forall₂ (AlikeBranch source source') bs bs') :
    Rereads (fun a b => sameBranches a b) (readBranches source bs) (readBranches source' bs') := by
  induction h with
  | nil =>
    rw [readBranches, readBranches]
    exact .pure (by rw [sameBranches])
  | @cons b b' bs bs' hb _ ih =>
    obtain ⟨test, body⟩ := b
    obtain ⟨test', body'⟩ := b'
    rw [readBranches, readBranches]
    refine (rereads_code hb.1).bind fun e e' he => ?_
    refine Rereads.bind hb.2 fun items items' hbody => ih.bind fun rest rest' hrest => .pure ?_
    simp [sameBranches, sameCondition, he, hbody, hrest]

theorem rereads_arms {bs bs' : List (Option Lexeme × List Surface)}
    (h : List.Forall₂ (AlikeArm source source') bs bs') :
    Rereads (fun a b => sameBranches a b) (readArms source bs) (readArms source' bs') := by
  induction h with
  | nil =>
    rw [readArms, readArms]
    exact .pure (by rw [sameBranches])
  | @cons b b' bs bs' hb _ ih =>
    obtain ⟨pattern, body⟩ := b
    obtain ⟨pattern', body'⟩ := b'
    obtain ⟨hpattern, hbody⟩ := hb
    dsimp only at hpattern hbody
    cases hpattern with
    | none =>
      rw [readArms, readArms]
      refine Rereads.bind hbody fun items items' hitems => ih.bind fun rest rest' hrest => .pure ?_
      simp [sameBranches, sameCondition, hitems, hrest]
    | some hcode =>
      rw [readArms, readArms]
      refine (rereads_code hcode).bind fun e e' he => ?_
      refine Rereads.bind hbody fun items items' hitems => ih.bind fun rest rest' hrest => .pure ?_
      simp [sameBranches, sameCondition, he, hitems, hrest]

theorem alike_choice {bs bs' : List (Lexeme × List Surface)} {last last' : Option (List Surface)}
    (h : List.Forall₂ (AlikeBranch source source') bs bs')
    (hlast : Option.Rel (AlikeBody source source') last last') (o o' : Nat) :
    AlikeNode source source' (.choice o bs last) (.choice o' bs' last') := by
  rw [AlikeNode, readNode, readNode]
  refine (rereads_branches h).bind fun as as' has => ?_
  have hnode {cs cs' : List (Option Expr × List Node)} (hcs : sameBranches cs cs') :
      Rereads SameItems (pure [.node (.choice (as ++ cs) (locate source o))])
        (pure [.node (.choice (as' ++ cs') (locate source' o'))]) := by
    refine .pure (.cons ?_ .nil)
    show Node.same _ _ = true
    rw [Node.same]
    exact sameBranches_append has hcs
  cases hlast with
  | none => exact hnode (by rw [sameBranches])
  | some hbody =>
    refine Rereads.bind hbody fun items items' hitems => hnode ?_
    simp [sameBranches, sameCondition, hitems]

theorem alike_each {names names' items items' : Lexeme} {body body' : List Surface}
    (hnames : names.chars = names'.chars) (hitems : SameCode items items')
    (hbody : AlikeBody source source' body body') (o o' : Nat) :
    AlikeNode source source' (.each o names items body) (.each o' names' items' body') := by
  rw [AlikeNode, readNode, readNode, hnames]
  refine (rereads_code hitems).bind fun e e' he => ?_
  refine Rereads.bind hbody fun inside inside' hinside => .pure (.cons ?_ .nil)
  show Node.same _ _ = true
  simp [Node.same, he, hinside]

theorem alike_cases {subject subject' : Lexeme} {arms arms' : List (Option Lexeme × List Surface)}
    (hsubject : SameCode subject subject')
    (harms : List.Forall₂ (AlikeArm source source') arms arms') (o o' : Nat) :
    AlikeNode source source' (.cases o subject arms) (.cases o' subject' arms') := by
  rw [AlikeNode, readNode, readNode]
  refine (rereads_code hsubject).bind fun e e' he => ?_
  refine (rereads_arms harms).bind fun as as' has => .pure (.cons ?_ .nil)
  show Node.same _ _ = true
  simp [Node.same, he, has]

/-! ### Elements -/

theorem alikeValue_quoted {l l' : Lexeme} (h : l.chars = l'.chars) :
    AlikeValue source source' (.quoted l) (.quoted l') := by
  intro name name'
  rw [readValue, readValue, Lexeme.unwrapped, Lexeme.unwrapped, h]
  exact .pure (by simp [Content.same])

theorem alikeValue_single (l l' : Lexeme) : AlikeValue source source' (.single l) (.single l') := by
  intro name name' content h
  cases h

theorem SameCode.value {l l' : Lexeme} (h : SameCode l l') :
    AlikeValue source source' (.expr l) (.expr l') := by
  intro name name'
  rw [readValue, readValue]
  exact (rereads_code h).bind fun e e' he => .pure (by simp [Content.same, he])

theorem SameCode.toggle {l l' : Lexeme} (h : SameCode l l') :
    AlikeValue source source' (.toggle l) (.toggle l') := by
  intro name name'
  rw [readValue, readValue]
  exact (rereads_code h).bind fun e e' he => .pure (by simp [Content.same, he])

theorem alike_attribute {name name' : Lexeme} {v v' : Option SurfaceValue}
    (hname : name.chars = name'.chars) (hv : Option.Rel (AlikeValue source source') v v') :
    AlikeAttribute source source' ⟨name, v⟩ ⟨name', v'⟩ := by
  have hvalue : Rereads (fun c c' => c.same c') (readValue source name v)
      (readValue source' name' v') := by
    cases hv with
    | some h => exact h name name'
    | none =>
      have hcode : SameCode ⟨name.offset, "True".toList⟩ ⟨name'.offset, "True".toList⟩ := rfl
      rw [readValue, readValue]
      exact (rereads_code hcode).bind fun e e' he => .pure (by simp [Content.same, he])
  rw [AlikeAttribute, readAttribute, readAttribute]
  refine hvalue.bind fun c c' hc => .pure ?_
  simp [Attribute.same, Lexeme.text, hname, hc]

theorem sameAttributes_forall {as bs : List Attribute}
    (h : List.Forall₂ (fun a b : Attribute => (a.same b : Prop)) as bs) : sameAttributes as bs := by
  induction h with
  | nil => rw [sameAttributes]
  | cons hab _ ih => simp [sameAttributes, hab, ih]

theorem alike_element {name name' : Lexeme} {attributes attributes' : List SurfaceAttribute}
    {children children' : List Surface} {closing closing' : Option Lexeme}
    (hname : name.chars = name'.chars)
    (hattributes : List.Forall₂ (AlikeAttribute source source') attributes attributes')
    (hchildren : AlikeNodes source source' children children')
    (hclosing : Option.Rel (fun l l' => l.chars = l'.chars) closing closing') (o o' : Nat) :
    AlikeNode source source' (.element o name [] attributes children closing)
      (.element o' name' [] attributes' children' closing') := by
  have hcheck : Rereads (fun _ _ => True) (checkClosing source name closing)
      (checkClosing source' name' closing') := by
    cases hclosing with
    | none => exact .pure trivial
    | @some l l' hl =>
      intro _ hok
      refine ⟨(), ?_, trivial⟩
      rw [checkClosing] at hok ⊢
      split at hok
      · next heq => rw [if_pos (by rw [← hl, heq, hname])]
      · cases hok
  have hmake {as as' : List Attribute} {ns ns' : List Node} (has : sameAttributes as as')
      (hns : sameNodes ns ns') : Rereads (fun n n' => n.same n')
        (makeElement source o name as ns) (makeElement source' o' name' as' ns') := by
    rw [makeElement, makeElement, hname]
    split
    · exact (rereads_code (congrArg trim hname)).bind fun e e' he =>
        .pure (by simp [Node.same, he, has, hns])
    · exact .pure (by simp [Node.same, Lexeme.text, hname, has, hns])
  rw [AlikeNode, readNode, readNode, readAttributes, readAttributes]
  refine Rereads.bind (R := fun a b => sameAttributes a.1 b.1 ∧ a.2 = false ∧ b.2 = false) ?_ ?_
  · refine Rereads.bind (R := fun a b => a = [] ∧ b = []) (.pure ⟨rfl, rfl⟩) ?_
    rintro _ _ ⟨rfl, rfl⟩
    exact (Rereads.mapM hattributes).bind fun as as' has =>
      .pure ⟨sameAttributes_forall has, rfl, rfl⟩
  rintro ⟨as, _⟩ ⟨as', _⟩ ⟨has, rfl, rfl⟩
  refine Rereads.bind hchildren fun items items' hitems => hcheck.bind fun _ _ _ => ?_
  rw [settleClasses, settleClasses]
  exact (hmake has (sameNodes_childNodes hitems)).bind fun n n' hn => .pure (.cons hn .nil)

/-! ### Nodes that are read as one node -/

theorem oneNode_raw (o : Nat) (l : Lexeme) : OneNode (.raw o l) := by
  intro source items h
  rw [readNode] at h
  obtain ⟨e, -, h⟩ := bind_eq_ok.mp h
  exact ⟨_, (pure_eq_ok.mp h).symm⟩

theorem oneNode_splice (o : Nat) (l : Lexeme) : OneNode (.splice o l) := by
  intro source items h
  rw [readNode] at h
  obtain ⟨e, -, h⟩ := bind_eq_ok.mp h
  exact ⟨_, (pure_eq_ok.mp h).symm⟩

theorem oneNode_quoted (l : Lexeme) : OneNode (.quoted l) := by
  intro source items h
  rw [readNode] at h
  exact ⟨_, (pure_eq_ok.mp h).symm⟩

theorem oneNode_doctype (o : Nat) : OneNode (.doctype o) := by
  intro source items h
  rw [readNode] at h
  exact ⟨_, (pure_eq_ok.mp h).symm⟩

theorem oneNode_choice (o : Nat) (bs : List (Lexeme × List Surface)) (last : Option (List Surface)) :
    OneNode (.choice o bs last) := by
  intro source items h
  rw [readNode] at h
  obtain ⟨as, -, h⟩ := bind_eq_ok.mp h
  cases last with
  | none => exact ⟨_, (pure_eq_ok.mp h).symm⟩
  | some body =>
    obtain ⟨inside, -, h⟩ := bind_eq_ok.mp h
    exact ⟨_, (pure_eq_ok.mp h).symm⟩

theorem oneNode_each (o : Nat) (names items : Lexeme) (body : List Surface) :
    OneNode (.each o names items body) := by
  intro source items h
  rw [readNode] at h
  obtain ⟨e, -, h⟩ := bind_eq_ok.mp h
  obtain ⟨inside, -, h⟩ := bind_eq_ok.mp h
  exact ⟨_, (pure_eq_ok.mp h).symm⟩

theorem oneNode_cases (o : Nat) (subject : Lexeme) (arms : List (Option Lexeme × List Surface)) :
    OneNode (.cases o subject arms) := by
  intro source items h
  rw [readNode] at h
  obtain ⟨e, -, h⟩ := bind_eq_ok.mp h
  obtain ⟨as, -, h⟩ := bind_eq_ok.mp h
  exact ⟨_, (pure_eq_ok.mp h).symm⟩

theorem oneNode_element (o : Nat) (name : Lexeme) (shorthands : List Shorthand)
    (attributes : List SurfaceAttribute) (children : List Surface) (closing : Option Lexeme) :
    OneNode (.element o name shorthands attributes children closing) := by
  intro source items h
  rw [readNode] at h
  obtain ⟨as, -, h⟩ := bind_eq_ok.mp h
  obtain ⟨inside, -, h⟩ := bind_eq_ok.mp h
  obtain ⟨_, -, h⟩ := bind_eq_ok.mp h
  obtain ⟨settled, -, h⟩ := bind_eq_ok.mp h
  obtain ⟨n, -, h⟩ := bind_eq_ok.mp h
  exact ⟨_, (pure_eq_ok.mp h).symm⟩

/-! ### Nodes among others -/

theorem mem_readNodes {source : List Char} {ss : List Surface} {items : List Item} {s : Surface}
    (h : readNodes source ss = .ok items) (hs : s ∈ ss) :
    ∃ own, readNode source s = .ok own ∧ ∀ i ∈ own, i ∈ items := by
  induction ss generalizing items with
  | nil => cases hs
  | cons s' ss ih =>
    rw [readNodes] at h
    obtain ⟨own, hown, h⟩ := bind_eq_ok.mp h
    obtain ⟨rest, hrest, h⟩ := bind_eq_ok.mp h
    obtain rfl := pure_eq_ok.mp h
    rcases List.mem_cons.mp hs with rfl | hs
    · exact ⟨own, hown, fun i hi => List.mem_append_left _ hi⟩
    · obtain ⟨own', hown', hmem⟩ := ih hrest hs
      exact ⟨own', hown', fun i hi => List.mem_append_right _ (hmem i hi)⟩

/-- An expression and a match are two nodes in the tree. -/
theorem childNodes_ne_single {source : List Char} {ss : List Surface} {items : List Item}
    (h : readNodes source ss = .ok items) {o o' : Nat} {l l' : Lexeme}
    {arms : List (Option Lexeme × List Surface)} (hsplice : .splice o l ∈ ss)
    (hcases : .cases o' l' arms ∈ ss) (n : Node) : childNodes items ≠ [n] := by
  intro hsingle
  have hmem {m : Node} (hm : m.literal? = none) (hitem : .node m ∈ items) : m = n := by
    have hnode := mem_mergeTexts_of_mem hm (List.mem_map_of_mem (f := Item.toNode) hitem)
    rw [← childNodes, hsingle] at hnode
    exact List.mem_singleton.mp hnode
  obtain ⟨own, hread, hown⟩ := mem_readNodes h hsplice
  obtain ⟨own', hread', hown'⟩ := mem_readNodes h hcases
  rw [readNode] at hread
  rw [readNode] at hread'
  obtain ⟨e, -, hread⟩ := bind_eq_ok.mp hread
  obtain ⟨subject, -, hread'⟩ := bind_eq_ok.mp hread'
  obtain ⟨bodies, -, hread'⟩ := bind_eq_ok.mp hread'
  obtain rfl := pure_eq_ok.mp hread
  obtain rfl := pure_eq_ok.mp hread'
  have hfirst := hmem rfl (hown _ (List.mem_singleton_self _))
  have hsecond := hmem rfl (hown' _ (List.mem_singleton_self _))
  cases hfirst.trans hsecond.symm

end Stencil.Source
