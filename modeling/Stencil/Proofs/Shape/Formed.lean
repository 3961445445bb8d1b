import Stencil.Proofs.Checking.Paths
import Stencil.Proofs.Joining
import Stencil.Source.Names

/-!
# The shape of trees

What every tree that was read has in common, as one condition on a node by itself and one on a list
of nodes. A tree is formed if its lists of nodes, at every depth, have neither empty texts nor
neighbouring ones and all its nodes are formed. Whether output may be left as it is, is up to the
reader of the definition.
-/

namespace Stencil

/-! ## Formed trees -/

namespace Content

/-- A part of a joined value: a text, or a value that is escaped. -/
def IsPart : Content → Prop
  | .literal _ => True
  | .dynamic _ raw => raw = false
  | _ => False

/-- The value of an attribute of a name. Only classes are joined from parts, one of which at least
is not known beforehand. -/
def IsValue (name : String) : Content → Prop
  | .toggle _ => True
  | .joined parts => name = "class" ∧ (∀ p ∈ parts, p.IsPart) ∧ ∃ e, .dynamic e false ∈ parts
  | content => content.IsPart

/-- The content of a text, where output is left as it is only if `raw` holds. -/
def IsText (raw : Prop) : Content → Prop
  | .literal _ => True
  | .dynamic _ isRaw => isRaw → raw
  | _ => False

end Content

/-- An attribute with a value that it can have. -/
def Attribute.Formed (a : Attribute) : Prop :=
  a.value.IsValue a.name

/-- No text in the list is empty, and no two texts are neighbours. -/
structure Separated (nodes : List Node) : Prop where
  not_empty : ∀ n ∈ nodes, n.literal? ≠ some ""
  not_adjacent : nodes.IsChain fun m n => m.literal? = none ∨ n.literal? = none

/-- The lists of nodes that a node holds. -/
def Node.lists : Node → List (List Node)
  | .element _ _ children _ _ => [children]
  | .component _ _ children _ => [children]
  | .choice branches _ => branches.map Prod.snd
  | .each _ _ body _ => [body]
  | .cases _ arms _ => arms.map Prod.snd
  | _ => []

/-- What a node fulfils by itself, the nodes that it holds aside. -/
def Node.Fits (raw : Prop) : Node → Prop
  | .element name attributes _ _ _ =>
    Source.isComponentName name.toList = false ∧ ∀ a ∈ attributes, a.Formed
  | .text content _ => content.IsText raw
  | .doctype _ => True
  | .component reference arguments _ _ =>
    Source.isComponentName reference.source.toList ∧ ∀ a ∈ arguments, a.Formed
  | .choice branches _ => branches ≠ [] ∧ ∀ b ∈ branches.dropLast, b.1.isSome
  | .each names _ _ _ => names ≠ []
  | .cases .. => True
  | .unknown => False

/-- A node that is formed, with lists of nodes that are separated. -/
structure Node.Formed (raw : Prop) (n : Node) : Prop where
  fits : n.Fits raw
  separated : ∀ nodes ∈ n.lists, Separated nodes

/-- A tree that is formed, at every depth. -/
structure Formed (raw : Prop) (nodes : List Node) : Prop where
  separated : Separated nodes
  formed : ∀ n ∈ walk nodes, n.Formed raw

/-! ## Reasons for raw output -/

theorem Content.isText_literal (raw : Prop) (text : String) : (Content.literal text).IsText raw :=
  trivial

theorem Content.isText_escaped (raw : Prop) (e : Expr) : (Content.dynamic e false).IsText raw :=
  nofun

theorem Content.isText_raw {raw : Prop} (h : raw) (e : Expr) :
    (Content.dynamic e true).IsText raw :=
  fun _ => h

theorem Content.IsText.mono {raw raw' : Prop} (h : raw → raw') {content : Content}
    (hc : content.IsText raw) : content.IsText raw' := by
  cases content with
  | dynamic e isRaw => exact fun hraw => h (hc hraw)
  | _ => exact hc

theorem Node.Fits.mono {raw raw' : Prop} (h : raw → raw') {n : Node} (hn : n.Fits raw) :
    n.Fits raw' := by
  cases n with
  | text content place => exact Content.IsText.mono h hn
  | _ => exact hn

theorem Formed.mono {raw raw' : Prop} (h : raw → raw') {nodes : List Node}
    (hnodes : Formed raw nodes) : Formed raw' nodes :=
  ⟨hnodes.separated, fun n hn =>
    ⟨(hnodes.formed n hn).fits.mono h, (hnodes.formed n hn).separated⟩⟩

/-! ## Nodes that hold nothing -/

@[simp] theorem Node.walk_text (content : Content) (place : Option Location) :
    (Node.text content place).walk = [.text content place] := by
  simp [Node.walk]

@[simp] theorem Node.walk_doctype (place : Option Location) :
    (Node.doctype place).walk = [.doctype place] := by
  simp [Node.walk]

@[simp] theorem Node.walk_unknown : Node.unknown.walk = [.unknown] := by
  simp [Node.walk]

/-! ## Neighbouring texts are merged -/

theorem Separated.nil : Separated [] :=
  ⟨List.forall_mem_nil _, .nil⟩

theorem Separated.cons {n : Node} {nodes : List Node} (h : Separated nodes)
    (hn : n.literal? ≠ some "") (hhead : ∀ m ∈ nodes.head?, n.literal? = none ∨ m.literal? = none) :
    Separated (n :: nodes) :=
  ⟨List.forall_mem_cons.mpr ⟨hn, h.not_empty⟩, List.isChain_cons.mpr ⟨hhead, h.not_adjacent⟩⟩

theorem Separated.tail {n : Node} {nodes : List Node} (h : Separated (n :: nodes)) :
    Separated nodes :=
  ⟨fun m hm => h.not_empty m (List.mem_cons_of_mem _ hm), (List.isChain_cons.mp h.not_adjacent).2⟩

theorem Separated.head {n : Node} {nodes : List Node} (h : Separated (n :: nodes)) :
    ∀ m ∈ nodes.head?, n.literal? = none ∨ m.literal? = none :=
  (List.isChain_cons.mp h.not_adjacent).1

theorem separated_mergeTexts (nodes : List Node) : Separated (mergeTexts nodes) := by
  obtain ⟨hempty, hchain⟩ := (joins_mergeTexts nodes).separated fun _ _ => rfl
  exact ⟨hempty, hchain⟩

theorem Node.formed_text {raw : Prop} {content : Content} (h : content.IsText raw)
    (place : Option Location) : (Node.text content place).Formed raw :=
  ⟨h, List.forall_mem_nil _⟩

theorem mem_mergeTexts {n : Node} {nodes : List Node} (h : n ∈ mergeTexts nodes) :
    n ∈ nodes ∨ ∃ text place, n = .text (.literal text) place := by
  refine ((joins_mergeTexts nodes).mem_or h).imp_right ?_
  rintro ⟨m, text, rfl⟩
  exact ⟨text, m.place, rfl⟩

theorem formed_mergeTexts {raw : Prop} {nodes : List Node}
    (h : ∀ n ∈ walk nodes, n.Formed raw) : Formed raw (mergeTexts nodes) := by
  refine ⟨separated_mergeTexts nodes, fun m hm => ?_⟩
  obtain ⟨n, hn, hm⟩ := mem_walk.mp hm
  rcases mem_mergeTexts hn with hn | ⟨text, place, rfl⟩
  · exact h m (mem_walk.mpr ⟨n, hn, hm⟩)
  · rw [Node.walk_text, List.mem_singleton] at hm
    subst hm
    exact Node.formed_text (Content.isText_literal raw text) place

/-! ## Names of components -/

namespace Source

open Text

/-- The code points of all blanks. -/
def blankCodes : List Nat :=
  [9, 10, 11, 12, 13, 0x1C, 0x1D, 0x1E, 0x1F, 0x20, 0x85, 0xA0, 0x1680, 0x2000, 0x2001, 0x2002,
    0x2003, 0x2004, 0x2005, 0x2006, 0x2007, 0x2008, 0x2009, 0x200A, 0x2028, 0x2029, 0x202F, 0x205F,
    0x3000]

theorem mem_blankCodes {c : Char} (h : isBlank c = true) : c.toNat ∈ blankCodes := by
  simp only [isBlank, isSpace, Bool.or_eq_true, Bool.and_eq_true, decide_eq_true_eq,
    beq_iff_eq] at h
  simp only [blankCodes, List.mem_cons, List.not_mem_nil, or_false]
  omega

set_option maxRecDepth 20000 in
theorem isPlainWord_blankCodes : ∀ n ∈ blankCodes, isPlainWord (Char.ofNat n) = false := by
  decide

theorem notBlank_of_plainWord {c : Char} (h : isPlainWord c = true) : isBlank c = false := by
  rw [← Bool.not_eq_true]
  intro hblank
  have hplain := isPlainWord_blankCodes c.toNat (mem_blankCodes hblank)
  rw [Char.ofNat_toNat, h] at hplain
  cases hplain

theorem mem_splitOnChar {mark c : Char} {text : List Char} (h : c ∈ text) :
    c = mark ∨ ∃ part ∈ splitOnChar mark text, c ∈ part := by
  induction text with
  | nil => cases h
  | cons d rest ih =>
    have hrest : c ∈ rest → c = mark ∨ ∃ part ∈ splitOnChar mark (d :: rest), c ∈ part := by
      intro hc
      rcases ih hc with h | ⟨part, hpart, hc⟩
      · exact .inl h
      · right
        unfold splitOnChar
        by_cases hd : d = mark
        · rw [if_pos hd]
          exact ⟨part, List.mem_cons_of_mem _ hpart, hc⟩
        · rw [if_neg hd]
          cases hsplit : splitOnChar mark rest with
          | nil => rw [hsplit] at hpart; cases hpart
          | cons first more =>
            rw [hsplit] at hpart
            rcases List.mem_cons.mp hpart with rfl | hpart
            · exact ⟨d :: part, List.mem_cons_self .., List.mem_cons_of_mem _ hc⟩
            · exact ⟨part, List.mem_cons_of_mem _ hpart, hc⟩
    -- the character is the mark itself, or it begins a part or is in one
    rcases List.mem_cons.mp h with rfl | hc
    · by_cases hmark : c = mark
      · exact .inl hmark
      · right
        unfold splitOnChar
        rw [if_neg hmark]
        cases splitOnChar mark rest with
        | nil => exact ⟨[c], List.mem_cons_self .., List.mem_cons_self ..⟩
        | cons first more => exact ⟨c :: first, List.mem_cons_self .., List.mem_cons_self ..⟩
    · exact hrest hc

theorem notBlank_of_isWordWith {head : Char → Bool} (hhead : ∀ c, head c → isBlank c = false)
    {part : List Char} (h : isWordWith head part) : ∀ c ∈ part, isBlank c = false := by
  cases part with
  | nil => exact List.forall_mem_nil _
  | cons c rest =>
    rw [isWordWith, Bool.and_eq_true, List.all_eq_true] at h
    exact List.forall_mem_cons.mpr ⟨hhead c h.1, fun d hd => notBlank_of_plainWord (h.2 d hd)⟩

theorem notBlank_of_componentParts {parts : List (List Char)} (h : areComponentParts parts) :
    ∀ part ∈ parts, ∀ c ∈ part, isBlank c = false := by
  -- all letters are in a range without blanks
  have hletter : ∀ c : Char, ('A' ≤ c ∧ c ≤ 'z') → isBlank c = false := by
    intro c hc
    have hlow : 65 ≤ c.toNat := hc.1
    have hhigh : c.toNat ≤ 122 := hc.2
    rw [← Bool.not_eq_true]
    simp only [isBlank, isSpace, Bool.or_eq_true, Bool.and_eq_true, decide_eq_true_eq,
      beq_iff_eq]
    omega
  have hcapital : ∀ c : Char, ('A' ≤ c && c ≤ 'Z') = true → isBlank c = false := by
    intro c hc
    simp only [Bool.and_eq_true, decide_eq_true_eq] at hc
    exact hletter c ⟨hc.1, Char.le_trans hc.2 (by decide)⟩
  have hqualifier : ∀ c : Char, (('a' ≤ c && c ≤ 'z') || c == '_') = true → isBlank c = false := by
    intro c hc
    simp only [Bool.or_eq_true, Bool.and_eq_true, decide_eq_true_eq, beq_iff_eq] at hc
    rcases hc with hc | rfl
    · exact hletter c ⟨Char.le_trans (by decide) hc.1, hc.2⟩
    · decide
  fun_induction areComponentParts parts with
  | case1 => exact List.forall_mem_nil _
  | case2 last => exact List.forall_mem_singleton.mpr (notBlank_of_isWordWith hcapital h)
  | case3 part rest _ ih =>
    rw [Bool.and_eq_true] at h
    exact List.forall_mem_cons.mpr ⟨notBlank_of_isWordWith hqualifier h.1, ih h.2⟩

/-- The name of a component is a text without blanks. -/
theorem notBlank_of_componentName {name : List Char} (h : isComponentName name) :
    ∀ c ∈ name, isBlank c = false := by
  intro c hc
  have hsplit : c = '.' ∨ ∃ part ∈ splitOnChar '.' name, c ∈ part := mem_splitOnChar hc
  rcases hsplit with rfl | ⟨part, hpart, hc⟩
  · decide
  · exact notBlank_of_componentParts h part hpart c hc

theorem trim_of_notBlank {text : List Char} (h : ∀ c ∈ text, isBlank c = false) :
    trim text = text := by
  have hdrop : ∀ l : List Char, (∀ c ∈ l, isBlank c = false) → l.dropWhile isBlank = l := by
    intro l hl
    cases l with
    | nil => rfl
    | cons c rest => exact List.dropWhile_cons_of_neg (by simp [hl c (List.mem_cons_self ..)])
  rw [trim, trimStart, hdrop text h, trimEnd, hdrop text.reverse, List.reverse_reverse]
  exact fun c hc => h c (List.mem_reverse.mp hc)

end Source

end Stencil
