import Stencil.Proofs.Checking.Paths
import Stencil.Proofs.Joining
import Stencil.Proofs.Places.SurfaceWalk
import Stencil.Proofs.Results
import Stencil.Source.Read

/-!
# What nodes are made from

A surface node becomes one node at most: comments and groups become none, and texts are trimmed,
merged and dropped. Nothing changes places on the way.

**Theorem (`made_readChars`).** The nodes of a tree that was read, in document order, are made from
surface nodes that follow each other in the order of the source, each from a surface node of its own.

What is said of single nodes of such a tree, or of their order, is thereby a question of what a
single surface node becomes.
-/

namespace Stencil

open Source

/-! ## Lists that are matched in order -/

section

variable {α β γ : Type}

theorem sublistForall₂_append {R : α → β → Prop} {as bs : List α} {cs ds : List β}
    (h : List.SublistForall₂ R as cs) (h' : List.SublistForall₂ R bs ds) :
    List.SublistForall₂ R (as ++ bs) (cs ++ ds) := by
  rw [List.sublistForall₂_iff] at h h' ⊢
  obtain ⟨l, hl, hsub⟩ := h
  obtain ⟨l', hl', hsub'⟩ := h'
  exact ⟨l ++ l', List.rel_append hl hl', hsub.append hsub'⟩

theorem sublistForall₂_comp {R : α → β → Prop} {S : β → γ → Prop} {T : α → γ → Prop}
    (hcomp : ∀ {a b c}, R a b → S b c → T a c) {as : List α} {bs : List β} {cs : List γ}
    (h : List.SublistForall₂ R as bs) (h' : List.SublistForall₂ S bs cs) :
    List.SublistForall₂ T as cs := by
  induction h' generalizing as with
  | nil =>
    cases h
    exact .nil
  | cons hs _ ih =>
    cases h with
    | nil => exact .nil
    | cons hr hrest => exact .cons (hcomp hr hs) (ih hrest)
    | cons_right hrest => exact .cons_right (ih hrest)
  | cons_right _ ih => exact .cons_right (ih h)

theorem sublistForall₂_mem {R : α → β → Prop} {as : List α} {bs : List β}
    (h : List.SublistForall₂ R as bs) {a : α} (ha : a ∈ as) : ∃ b ∈ bs, R a b := by
  induction h with
  | nil => cases ha
  | cons hr _ ih =>
    rcases List.mem_cons.mp ha with rfl | ha
    · exact ⟨_, List.mem_cons_self .., hr⟩
    · exact (ih ha).imp fun _ hb => ⟨List.mem_cons_of_mem _ hb.1, hb.2⟩
  | cons_right _ ih => exact (ih ha).imp fun _ hb => ⟨List.mem_cons_of_mem _ hb.1, hb.2⟩

end

/-! ## One node -/

variable {source : List Char}

/-- A surface node stands for the node, as far as what the two hold is left aside. The text of a
literal is left open, since it may be trimmed and merged with others. -/
inductive Node.MadeFrom (source : List Char) : Node → Surface → Prop
  | doctype (offset : Nat) : MadeFrom source (.doctype (locate source offset)) (.doctype offset)
  | raw (offset : Nat) {body : Lexeme} {e : Expr} (h : readExpr source body = .ok e) :
      MadeFrom source (.text (.dynamic e true) (locate source offset)) (.raw offset body)
  | choice (offset : Nat) {branches : List (Lexeme × List Surface)} (last : Option (List Surface))
      {bodies : List (Option Expr × List Node)}
      (h : ∀ b ∈ bodies, ∀ e ∈ b.1, ∃ c ∈ branches, readExpr source c.1 = .ok e) :
      MadeFrom source (.choice bodies (locate source offset)) (.choice offset branches last)
  | each (offset : Nat) (names : Lexeme) {items : Lexeme} {e : Expr} (body : List Surface)
      (inner : List Node) (h : readExpr source items = .ok e) :
      MadeFrom source (.each ((loopNames names.chars).map String.ofList) e inner
        (locate source offset)) (.each offset names items body)
  | cases (offset : Nat) {subject : Lexeme} {arms : List (Option Lexeme × List Surface)} {e : Expr}
      {bodies : List (Option Expr × List Node)} (hsubject : readExpr source subject = .ok e)
      (h : ∀ b ∈ bodies, ∀ p ∈ b.1, ∃ arm ∈ arms, ∃ l ∈ arm.1, readExpr source l = .ok p) :
      MadeFrom source (.cases e bodies (locate source offset)) (.cases offset subject arms)
  | element {offset : Nat} {name : Lexeme} {shorthands : List Shorthand}
      {attributes : List SurfaceAttribute} (children : List Surface) (closing : Option Lexeme)
      {given : List Attribute × Bool} {settled : List Attribute} {inner : List Node} {n : Node}
      (hgiven : readAttributes source shorthands attributes = .ok given)
      (hsettled : settleClasses given = .ok settled)
      (h : makeElement source offset name settled inner = .ok n) :
      MadeFrom source n (.element offset name shorthands attributes children closing)
  | splice (offset : Nat) {body : Lexeme} {e : Expr} (h : readExpr source body = .ok e) :
      MadeFrom source (.text (.dynamic e false) (locate source offset)) (.splice offset body)
  | quoted (literal : Lexeme) (text : String) :
      MadeFrom source (.text (.literal text) (locate source literal.offset)) (.quoted literal)
  | plain (shown : Lexeme) (text : String) :
      MadeFrom source (.text (.literal text) (locate source shown.offset)) (.plain shown)
  | number (digits : Lexeme) (text : String) :
      MadeFrom source (.text (.literal text) (locate source digits.offset)) (.number digits)

/-- The node is the other, or both are literal texts that begin at one place. -/
inductive Node.Retexts : Node → Node → Prop
  | refl (n : Node) : Retexts n n
  | text (s t : String) (place : Option Location) :
      Retexts (.text (.literal s) place) (.text (.literal t) place)

theorem Node.Retexts.madeFrom {m n : Node} {s : Surface} (h : m.Retexts n)
    (hn : n.MadeFrom source s) : m.MadeFrom source s := by
  cases h with
  | refl => exact hn
  | text t _ place =>
    cases hn with
    | quoted literal => exact .quoted literal t
    | plain shown => exact .plain shown t
    | number digits => exact .number digits t
    | element _ _ _ _ h =>
      -- no element is a text
      rcases makeElement_eq_ok source h with ⟨_, -, h⟩ | h <;> cases h

/-! ## Texts that are trimmed and merged -/

/-- The nodes are among the others in their order, apart from the texts of literals. -/
def Retext (nodes others : List Node) : Prop :=
  List.SublistForall₂ Node.Retexts (walk nodes) (walk others)

namespace Retext

variable {nodes others more rest : List Node}

theorem refl (nodes : List Node) : Retext nodes nodes :=
  List.sublistForall₂_iff.mpr
    ⟨_, List.forall₂_same.mpr fun n _ => .refl n, List.Sublist.refl _⟩

theorem trans (h : Retext nodes others) (h' : Retext others more) : Retext nodes more := by
  refine sublistForall₂_comp ?_ h h'
  intro a b c hab hbc
  cases hab with
  | refl => exact hbc
  | text s t place =>
    cases hbc with
    | refl => exact .text s t place
    | text _ u => exact .text s u place

theorem append (h : Retext nodes others) (h' : Retext more rest) :
    Retext (nodes ++ more) (others ++ rest) := by
  rw [Retext, walk_append, walk_append]
  exact sublistForall₂_append h h'

theorem cons (n : Node) (h : Retext nodes others) : Retext (n :: nodes) (n :: others) :=
  (refl [n]).append h

theorem text (s t : String) (place : Option Location) :
    Retext [.text (.literal s) place] [.text (.literal t) place] := by
  simp only [Retext, walk, Node.walk, List.append_nil]
  exact .cons (.text s t place) .nil

theorem drop (n : Node) (h : Retext nodes others) : Retext nodes (n :: others) := by
  have hnil : Retext [] [n] := by
    rw [Retext, walk]
    exact .nil
  exact hnil.append h

theorem tail {n : Node} (h : Retext (n :: nodes) others) : Retext nodes others :=
  (drop n (refl nodes)).trans h

end Retext

theorem Node.eq_text {n : Node} {text : String} (h : n.literal? = some text) :
    n = .text (.literal text) n.place := by
  cases n with
  | text content place =>
    cases content with
    | literal => exact congrArg (fun t => Node.text (.literal t) place) (Option.some.inj h)
    | _ => cases h
  | _ => cases h

theorem retext_mergeTexts (nodes : List Node) : Retext (mergeTexts nodes) nodes := by
  have hjoins := joins_mergeTexts nodes
  generalize mergeTexts nodes = merged at hjoins ⊢
  induction hjoins with
  | nil => exact .refl []
  | keep _ _ _ ih => exact ih.cons _
  | drop _ _ ih => exact ih.drop _
  | @join n _ _ _ first second hn _ _ _ ih =>
    have htext := Retext.text (first ++ second) first n.place
    rw [← Node.eq_text hn] at htext
    exact htext.append ih.tail

namespace Source

theorem retext_trimStart (i : Item) : Retext [i.trimStart.toNode] [i.toNode] := by
  cases i with
  | node n => exact .refl _
  | plain text place => exact .text _ _ place

theorem retext_trimEnd (i : Item) : Retext [i.trimEnd.toNode] [i.toNode] := by
  cases i with
  | node n => exact .refl _
  | plain text place => exact .text _ _ place

theorem retext_trimFirst (items : List Item) :
    Retext ((trimFirst items).map Item.toNode) (items.map Item.toNode) := by
  cases items with
  | nil => exact .refl []
  | cons i rest => exact (retext_trimStart i).append (.refl _)

theorem retext_trimLast (items : List Item) :
    Retext ((trimLast items).map Item.toNode) (items.map Item.toNode) := by
  induction items with
  | nil => exact .refl []
  | cons i rest ih =>
    cases rest with
    | nil => exact retext_trimEnd i
    | cons j more =>
      have hcons : trimLast (i :: j :: more) = i :: trimLast (j :: more) := by simp [trimLast]
      rw [hcons]
      exact ih.cons i.toNode

theorem retext_blockNodes (items : List Item) :
    Retext (blockNodes items) (items.map Item.toNode) :=
  (retext_mergeTexts _).trans ((retext_trimLast _).trans (retext_trimFirst items))

end Source

/-! ## Nodes and what they hold -/

/-- The nodes, and those below them, are made from the surface nodes and those below these, in
their order. -/
def AreMadeFrom (source : List Char) (nodes : List Node) (surface : List Surface) : Prop :=
  List.SublistForall₂ (Node.MadeFrom source) (walk nodes) (surface.flatMap Surface.walk)

namespace AreMadeFrom

variable {nodes others : List Node} {surface more : List Surface}

theorem nil (surface : List Surface) : AreMadeFrom source [] surface := by
  rw [AreMadeFrom, walk]
  exact .nil

theorem append (h : AreMadeFrom source nodes surface) (h' : AreMadeFrom source others more) :
    AreMadeFrom source (nodes ++ others) (surface ++ more) := by
  rw [AreMadeFrom, walk_append, List.flatMap_append]
  exact sublistForall₂_append h h'

theorem retext (h : AreMadeFrom source nodes surface) (hretext : Retext others nodes) :
    AreMadeFrom source others surface :=
  sublistForall₂_comp (fun hab hbc => hab.madeFrom hbc) hretext h

/-- A surface node of which only what it holds is left. -/
theorem of_held {s : Surface} (h : AreMadeFrom source nodes s.held) :
    AreMadeFrom source nodes [s] := by
  rw [AreMadeFrom, List.flatMap_singleton, Surface.walk_eq]
  exact .cons_right h

theorem single {n : Node} {s : Surface} (hn : n.MadeFrom source s)
    (h : AreMadeFrom source n.held s.held) : AreMadeFrom source [n] [s] := by
  rw [AreMadeFrom, walk, walk, List.append_nil, Node.walk_eq, List.flatMap_singleton,
    Surface.walk_eq]
  exact .cons hn h

/-- A node that holds nothing. -/
theorem leaf {n : Node} {s : Surface} (hn : n.MadeFrom source s) (hheld : n.held = []) :
    AreMadeFrom source [n] [s] :=
  single hn (hheld ▸ nil _)

end AreMadeFrom

namespace Source

/-! ## Reading -/

/-- What a surface node is read as is made from it and what it holds. -/
def Surface.Makes (source : List Char) (s : Surface) : Prop :=
  ∀ {items}, readNode source s = .ok items → AreMadeFrom source (items.map Item.toNode) [s]

theorem made_readNodes {nodes : List Surface} (hs : ∀ s ∈ nodes, s.Makes source)
    {items : List Item} (h : readNodes source nodes = .ok items) :
    AreMadeFrom source (items.map Item.toNode) nodes := by
  induction nodes generalizing items with
  | nil =>
    rw [readNodes] at h
    cases h
    exact .nil []
  | cons s rest ih =>
    rw [readNodes] at h
    obtain ⟨hfirst, hrest⟩ := List.forall_mem_cons.mp hs
    obtain ⟨first, hread, h⟩ := bind_eq_ok.mp h
    obtain ⟨others, hothers, h⟩ := bind_eq_ok.mp h
    rw [← pure_eq_ok.mp h, List.map_append]
    exact (hfirst hread).append (ih hrest hothers)

theorem made_blockNodes {nodes : List Surface} (hs : ∀ s ∈ nodes, s.Makes source)
    {items : List Item} (h : readNodes source nodes = .ok items) :
    AreMadeFrom source (blockNodes items) nodes :=
  (made_readNodes hs h).retext (retext_blockNodes items)

theorem made_childNodes {nodes : List Surface} (hs : ∀ s ∈ nodes, s.Makes source)
    {items : List Item} (h : readNodes source nodes = .ok items) :
    AreMadeFrom source (childNodes items) nodes :=
  (made_readNodes hs h).retext (retext_mergeTexts _)

theorem made_readBranches {branches : List (Lexeme × List Surface)}
    (hs : ∀ s ∈ branches.flatMap Prod.snd, s.Makes source)
    {bodies : List (Option Expr × List Node)} (h : readBranches source branches = .ok bodies) :
    (∀ b ∈ bodies, ∀ e ∈ b.1, ∃ c ∈ branches, readExpr source c.1 = .ok e) ∧
      AreMadeFrom source (bodies.flatMap Prod.snd) (branches.flatMap Prod.snd) := by
  induction branches generalizing bodies with
  | nil =>
    rw [readBranches] at h
    cases h
    exact ⟨List.forall_mem_nil _, .nil []⟩
  | cons b rest ih =>
    rw [List.flatMap_cons] at hs ⊢
    obtain ⟨hbody, hrest⟩ := List.forall_mem_append.mp hs
    rw [readBranches] at h
    obtain ⟨test, htest, h⟩ := bind_eq_ok.mp h
    obtain ⟨inside, hinside, h⟩ := bind_eq_ok.mp h
    obtain ⟨others, hothers, h⟩ := bind_eq_ok.mp h
    obtain ⟨htests, hmade⟩ := ih hrest hothers
    rw [← pure_eq_ok.mp h, List.flatMap_cons]
    refine ⟨List.forall_mem_cons.mpr ⟨?_, ?_⟩, (made_blockNodes hbody hinside).append hmade⟩
    · rintro e ⟨⟩
      exact ⟨b, List.mem_cons_self .., htest⟩
    · intro other hother e he
      exact (htests other hother e he).imp fun _ hc => ⟨List.mem_cons_of_mem _ hc.1, hc.2⟩

theorem made_readArms {arms : List (Option Lexeme × List Surface)}
    (hs : ∀ s ∈ arms.flatMap Prod.snd, s.Makes source)
    {bodies : List (Option Expr × List Node)} (h : readArms source arms = .ok bodies) :
    (∀ b ∈ bodies, ∀ p ∈ b.1, ∃ arm ∈ arms, ∃ l ∈ arm.1, readExpr source l = .ok p) ∧
      AreMadeFrom source (bodies.flatMap Prod.snd) (arms.flatMap Prod.snd) := by
  induction arms generalizing bodies with
  | nil =>
    rw [readArms] at h
    cases h
    exact ⟨List.forall_mem_nil _, .nil []⟩
  | cons arm rest ih =>
    rw [List.flatMap_cons] at hs ⊢
    obtain ⟨hbody, hrest⟩ := List.forall_mem_append.mp hs
    have hlater : ∀ {others}, readArms source rest = .ok others → ∀ b ∈ others, ∀ p ∈ b.1,
        ∃ a ∈ arm :: rest, ∃ l ∈ a.1, readExpr source l = .ok p := by
      intro others hothers b hb p hp
      exact ((ih hrest hothers).1 b hb p hp).imp fun _ ha => ⟨List.mem_cons_of_mem _ ha.1, ha.2⟩
    obtain ⟨_ | pattern, body⟩ := arm
    · rw [readArms] at h
      obtain ⟨inside, hinside, h⟩ := bind_eq_ok.mp h
      obtain ⟨others, hothers, h⟩ := bind_eq_ok.mp h
      rw [← pure_eq_ok.mp h, List.flatMap_cons]
      refine ⟨List.forall_mem_cons.mpr ⟨nofun, hlater hothers⟩, ?_⟩
      exact (made_blockNodes hbody hinside).append (ih hrest hothers).2
    · rw [readArms] at h
      obtain ⟨e, he, h⟩ := bind_eq_ok.mp h
      obtain ⟨inside, hinside, h⟩ := bind_eq_ok.mp h
      obtain ⟨others, hothers, h⟩ := bind_eq_ok.mp h
      rw [← pure_eq_ok.mp h, List.flatMap_cons]
      refine ⟨List.forall_mem_cons.mpr ⟨?_, hlater hothers⟩, ?_⟩
      · rintro p ⟨⟩
        exact ⟨_, List.mem_cons_self .., pattern, rfl, he⟩
      · exact (made_blockNodes hbody hinside).append (ih hrest hothers).2

theorem held_makeElement {offset : Nat} {name : Lexeme} {attributes : List Attribute}
    {children : List Node} {n : Node}
    (h : makeElement source offset name attributes children = .ok n) : n.held = children := by
  rcases makeElement_eq_ok source h with ⟨_, -, rfl⟩ | rfl <;> rfl

theorem makes (s : Surface) : s.Makes source := by
  induction s using Surface.induction_held with
  | step s ih =>
  intro items h
  cases s with
  | comment =>
    rw [readNode] at h
    cases h
    exact .nil _
  | doctype offset =>
    rw [readNode] at h
    cases h
    exact .leaf (.doctype offset) rfl
  | group nodes =>
    rw [readNode] at h
    exact .of_held (made_readNodes ih h)
  | raw offset body =>
    rw [readNode] at h
    obtain ⟨e, he, h⟩ := bind_eq_ok.mp h
    rw [← pure_eq_ok.mp h]
    exact .leaf (.raw offset he) rfl
  | choice offset branches last =>
    rw [readNode] at h
    obtain ⟨bodies, hbodies, h⟩ := bind_eq_ok.mp h
    obtain ⟨htests, hmade⟩ := made_readBranches (fun s hs => ih s (List.mem_append_left _ hs)) hbodies
    cases last with
    | none =>
      rw [← pure_eq_ok.mp h, List.append_nil, List.map_singleton, Item.toNode]
      refine .single (.choice offset none htests) ?_
      rw [Node.held, Surface.held, Option.getD_none, List.append_nil]
      exact hmade
    | some body =>
      obtain ⟨inside, hinside, h⟩ := bind_eq_ok.mp h
      have hbody := made_blockNodes (fun s hs => ih s (List.mem_append_right _ hs)) hinside
      rw [← pure_eq_ok.mp h, List.map_singleton, Item.toNode]
      refine .single (.choice offset (some body) ?_) ?_
      · exact List.forall_mem_append.mpr ⟨htests, List.forall_mem_singleton.mpr fun _ h => by cases h⟩
      · rw [Node.held, List.flatMap_append, List.flatMap_singleton]
        exact hmade.append hbody
  | each offset names items body =>
    rw [readNode] at h
    obtain ⟨e, he, h⟩ := bind_eq_ok.mp h
    obtain ⟨inside, hinside, h⟩ := bind_eq_ok.mp h
    rw [← pure_eq_ok.mp h]
    exact .single (.each offset names body _ he) (made_blockNodes ih hinside)
  | cases offset subject arms =>
    rw [readNode] at h
    obtain ⟨e, he, h⟩ := bind_eq_ok.mp h
    obtain ⟨bodies, hbodies, h⟩ := bind_eq_ok.mp h
    obtain ⟨hpatterns, hmade⟩ := made_readArms ih hbodies
    rw [← pure_eq_ok.mp h]
    exact .single (.cases offset he hpatterns) hmade
  | element offset name shorthands attributes children closing =>
    rw [readNode] at h
    obtain ⟨given, hgiven, h⟩ := bind_eq_ok.mp h
    obtain ⟨inside, hinside, h⟩ := bind_eq_ok.mp h
    obtain ⟨-, -, h⟩ := bind_eq_ok.mp h
    obtain ⟨settled, hsettled, h⟩ := bind_eq_ok.mp h
    obtain ⟨n, hn, h⟩ := bind_eq_ok.mp h
    rw [← pure_eq_ok.mp h, List.map_singleton, Item.toNode]
    refine .single (.element children closing hgiven hsettled hn) ?_
    rw [held_makeElement hn]
    exact made_childNodes ih hinside
  | splice offset body =>
    rw [readNode] at h
    obtain ⟨e, he, h⟩ := bind_eq_ok.mp h
    rw [← pure_eq_ok.mp h]
    exact .leaf (.splice offset he) rfl
  | quoted literal =>
    rw [readNode] at h
    cases h
    exact .leaf (.quoted literal _) rfl
  | plain shown =>
    rw [readNode] at h
    cases h
    exact .leaf (.plain shown _) rfl
  | number digits =>
    rw [readNode] at h
    cases h
    exact .leaf (.number digits _) rfl

/-- **The nodes of a tree were made from surface nodes in the order of the source.** -/
theorem made_readChars {dialect : Dialect} {nodes : List Node}
    (h : readChars dialect source = .ok nodes) :
    ∃ surface, recognize dialect source = .ok surface ∧ AreMadeFrom source nodes surface := by
  obtain ⟨surface, hsurface, h⟩ := bind_eq_ok.mp h
  obtain ⟨items, hitems, h⟩ := bind_eq_ok.mp h
  rw [← pure_eq_ok.mp h]
  exact ⟨surface, hsurface, made_childNodes (fun s _ => makes s) hitems⟩

end Source

end Stencil
