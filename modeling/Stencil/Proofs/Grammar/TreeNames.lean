import Stencil.Proofs.Grammar.SurfaceNames
import Stencil.Proofs.Markup.Tags
import Stencil.Proofs.Places.Made
import Stencil.Proofs.Places.Order

/-!
# Names in trees

Whatever source is read, in either dialect, the names of the elements of its tree and of their
attributes can stand in tags.
-/

namespace Stencil

open Markup

/-- All elements have names that can stand in tags, at any depth. -/
def HaveNames (nodes : List Node) : Prop :=
  ∀ m ∈ walk nodes, m.HasNames

namespace Source

/-! ## Attributes -/

theorem isName_class : IsName "class".toList := by
  simp [IsName, isDelimiter]

theorem isName_id : IsName "id".toList := by
  simp [IsName, isDelimiter]

theorem named_settleClasses {given : List Attribute × Bool} {attributes : List Attribute}
    (ha : ∀ a ∈ given.1, IsName a.name.toList) (h : settleClasses given = .ok attributes) :
    ∀ a ∈ attributes, IsName a.name.toList := by
  obtain ⟨given, _ | _⟩ := given
  · cases h
    exact ha
  intro a hmem
  rcases mem_mergeClasses h hmem with hmem | ⟨hname, -⟩
  · exact ha a hmem
  · rw [hname]
    exact isName_class

variable {source : List Char}

theorem isName_readAttribute {s : SurfaceAttribute} {a : Attribute} (hs : s.Named)
    (h : readAttribute source s = .ok a) : IsName a.name.toList := by
  obtain ⟨value, -, h⟩ := bind_eq_ok.mp h
  rw [← pure_eq_ok.mp h]
  rw [Lexeme.text, String.toList_ofList]
  exact hs

theorem isName_readShorthand {s : Shorthand} {a : Attribute}
    (h : readShorthand source s = .ok a) : IsName a.name.toList := by
  obtain ⟨value, -, h⟩ := bind_eq_ok.mp h
  rw [← pure_eq_ok.mp h]
  dsimp only
  split
  · exact isName_class
  · exact isName_id

theorem named_readAttributes {shorthands : List Shorthand} {surface : List SurfaceAttribute}
    {result : List Attribute × Bool} (hs : ∀ s ∈ surface, s.Named)
    (h : readAttributes source shorthands surface = .ok result) :
    ∀ a ∈ result.1, IsName a.name.toList := by
  obtain ⟨front, hfront, h⟩ := bind_eq_ok.mp h
  obtain ⟨back, hback, h⟩ := bind_eq_ok.mp h
  rw [← pure_eq_ok.mp h]
  refine List.forall_mem_append.mpr ⟨fun a ha => ?_, fun a ha => ?_⟩
  · obtain ⟨s, -, hread⟩ := mem_mapM hfront ha
    exact isName_readShorthand hread
  · obtain ⟨s, hmem, hread⟩ := mem_mapM hback ha
    exact isName_readAttribute (hs s hmem) hread

/-! ## Nodes -/

theorem Surface.named_held (s : Surface) (h : s.Named) : ∀ t ∈ s.held, t.Named := by
  cases h with
  | group h => exact h
  | choice _ h hlast => exact forall_mem_branches.mpr ⟨h, hlast⟩
  | each _ _ _ h => exact h
  | cases _ _ h => exact forall_mem_bodies.mpr h
  | element _ _ _ _ _ h => exact h
  | _ => exact List.forall_mem_nil _

theorem hasNames_madeFrom {n : Node} {s : Surface} (h : n.MadeFrom source s) (hs : s.Named) :
    n.HasNames := by
  cases h with
  | element children closing hgiven hsettled h =>
    cases hs with
    | element _ _ _ hname hnames _ =>
      have hall := named_settleClasses (named_readAttributes hnames hgiven) hsettled
      rcases makeElement_eq_ok source h with ⟨_, -, rfl⟩ | rfl
      · exact trivial
      · exact ⟨by simpa [Lexeme.text] using hname, hall⟩
  | _ => exact trivial

theorem named_recognize {dialect : Dialect} {surface : List Surface}
    (h : recognize dialect source = .ok surface) : AreNamed surface := by
  obtain ⟨c, hresult⟩ := recognize_eq_ok h
  cases dialect with
  | rsx => exact Rsx.yields_document _ hresult
  | maud => exact Maud.yields_document _ hresult

end Source

/-- **The names of a tree that was read can stand in tags**, in both dialects. -/
theorem haveNames_read {dialect : Dialect} {source : String} {nodes : List Node}
    (h : Source.read dialect source = .ok nodes) : HaveNames nodes := by
  obtain ⟨surface, hsurface, hmade⟩ := Source.made_readChars h
  intro m hm
  obtain ⟨s, hs, hmade⟩ := sublistForall₂_mem hmade hm
  have hnamed := Source.named_recognize hsurface
  exact Source.hasNames_madeFrom hmade
    (Source.Surface.forall_mem_walk Source.Surface.named_held hnamed s hs)

end Stencil
