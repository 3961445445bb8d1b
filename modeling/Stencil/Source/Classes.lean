import Stencil.Tree.Basic

/-!
# Classes and ids in front of attributes

An element may be given classes and an id in front of its attributes. All class values become one
attribute, which stands where the first of them does; a toggle named `class` is no class value.
-/

namespace Stencil.Source

/-- What is known after some of the attributes. -/
structure Gathered where
  /-- Attributes before the first class value, the last one first. -/
  front : List Attribute := []
  /-- The place of the first class value. -/
  first : Option (Option Location) := none
  /-- The class values, the last one first. -/
  classes : List Content := []
  /-- Attributes after the first class value, the last one first. -/
  back : List Attribute := []
  hasId : Bool := false

/-- The value of an attribute that is one of the classes. -/
def classValue? (a : Attribute) : Option Content :=
  if a.name == "class" then
    match a.value with
    | .literal text => some (.literal text)
    | .dynamic expr raw => some (.dynamic expr raw)
    | _ => none
  else none

/-- Take in one more attribute. -/
def Gathered.add (g : Gathered) (a : Attribute) : Except SourceError Gathered :=
  match classValue? a with
  | some value =>
    .ok { g with first := some (g.first.getD a.place), classes := value :: g.classes }
  | none =>
    if a.name == "id" && g.hasId then .error ⟨.duplicateId, a.place⟩
    else
      let g := { g with hasId := g.hasId || a.name == "id" }
      .ok (match g.first with
        | none => { g with front := a :: g.front }
        | some _ => { g with back := a :: g.back })

/-- One value for several classes: a text if all are texts, the parts otherwise. -/
def joinClasses (classes : List Content) : Content :=
  if classes.all fun c => c.literal?.isSome then
    .literal (" ".intercalate ((classes.filterMap Content.literal?).filter fun s => !s.isEmpty))
  else .joined classes

/-- All attributes, with one for the classes. -/
def Gathered.attributes (g : Gathered) : List Attribute :=
  match g.first with
  | none => g.front.reverse
  | some place =>
    g.front.reverse ++ ⟨"class", joinClasses g.classes.reverse, place⟩ :: g.back.reverse

/-- Attributes with their classes joined. A second id is refused. -/
def mergeClasses (attributes : List Attribute) : Except SourceError (List Attribute) := do
  return (← attributes.foldlM Gathered.add {}).attributes

end Stencil.Source
