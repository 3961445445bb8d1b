import Mathlib.Data.List.Basic
import Stencil.Text.Word

/-!
# Scanning markup

What well-formed markup is, told by a scanner that reads it once from left to right, character by
character. It knows in which part of the markup it is and which elements are open.

Outside of tags and inside of attribute values there is no `<`, `>`, `"` or `'`, and an ampersand
begins one of five entities. Everything else is a document type declaration, a start tag with
attributes or an end tag. An end tag has to have the name of the innermost open element; elements
that are void are never open.
-/

namespace Stencil.Markup

/-! ## The scanner -/

/-- A character that cannot stand in a name: white space, or one that marks the parts of a tag. -/
def isDelimiter (c : Char) : Bool :=
  [' ', '\t', '\n', '\r', '\x0c', '<', '>', '"', '\'', '&', '=', '/'].contains c

/-- The five entities, without the ampersand that they begin with. -/
def entities : List (List Char) :=
  [['a', 'm', 'p', ';'], ['l', 't', ';'], ['g', 't', ';'], ['q', 'u', 'o', 't', ';'],
    ['#', 'x', '2', '7', ';']]

/-- The document type declaration, without the two characters that it begins with. -/
def declaration : List Char :=
  ['D', 'O', 'C', 'T', 'Y', 'P', 'E', ' ', 'h', 't', 'm', 'l', '>']

/-- Where in the markup a scanner is. Inside of a start tag it goes with the name of the tag. -/
inductive Place where
  | text
  /-- Behind the `<` of a tag. -/
  | opened
  /-- In a document type declaration, with what has to follow. -/
  | declared (left : List Char)
  | startName (name : List Char)
  /-- Behind a space, where an attribute begins. -/
  | attribute (name : List Char)
  | attributeName (name : List Char)
  | assigned (name : List Char)
  | value (name : List Char)
  | valueEnd (name : List Char)
  /-- Behind the `</` of an end tag. -/
  | ended
  | endName (name : List Char)
  /-- In an entity of a text or a value, with what may follow. -/
  | entity (inside : Place) (left : List (List Char))
deriving DecidableEq, Repr

/-- The state of a scanner: where it is, and the names of the open elements, the innermost first. -/
structure State where
  place : Place
  stack : List (List Char)
deriving DecidableEq, Repr

variable (isVoid : List Char → Bool)

/-- The state behind a start tag. -/
def State.enter (s : State) (name : List Char) : State :=
  ⟨.text, if isVoid name then s.stack else name :: s.stack⟩

/-- The state behind an end tag. -/
def State.close (s : State) (name : List Char) : Option State :=
  match s.stack with
  | top :: rest => if top = name then some ⟨.text, rest⟩ else none
  | [] => none

/-- What may follow a character. -/
def following (c : Char) (left : List (List Char)) : List (List Char) :=
  left.filterMap fun
    | d :: rest => if d = c then some rest else none
    | [] => none

/-- The place behind one more character of a text or a value, or none if the character cannot stand
there. -/
def inertPlace (place : Place) (c : Char) : Option Place :=
  if c = '&' then some (.entity place entities)
  else if c = '<' ∨ c = '>' ∨ c = '"' ∨ c = '\'' then none
  else some place

/-- The state behind one more character, or none if the character cannot stand there. -/
def step (s : State) (c : Char) : Option State :=
  let go (place : Place) : Option State := some { s with place := place }
  match s.place with
  | .text => if c = '<' then go .opened else (inertPlace .text c).bind go
  | .value name => if c = '"' then go (.valueEnd name) else (inertPlace (.value name) c).bind go
  | .entity inside left =>
    let left := following c left
    if left.isEmpty then none else if left.contains [] then go inside else go (.entity inside left)
  | .opened =>
    if c = '/' then go .ended
    else if c = '!' then go (.declared declaration)
    else if Text.isAsciiLetter c then go (.startName [c])
    else none
  | .declared [] => none
  | .declared (d :: left) =>
    if c = d then go (if left.isEmpty then .text else .declared left) else none
  | .startName name =>
    if c = '>' then some (s.enter isVoid name)
    else if c = ' ' then go (.attribute name)
    else if isDelimiter c then none
    else go (.startName (name ++ [c]))
  | .attribute name => if isDelimiter c then none else go (.attributeName name)
  | .attributeName name =>
    if c = '>' then some (s.enter isVoid name)
    else if c = ' ' then go (.attribute name)
    else if c = '=' then go (.assigned name)
    else if isDelimiter c then none
    else go (.attributeName name)
  | .assigned name => if c = '"' then go (.value name) else none
  | .valueEnd name =>
    if c = '>' then some (s.enter isVoid name)
    else if c = ' ' then go (.attribute name)
    else none
  | .ended => if Text.isAsciiLetter c then go (.endName [c]) else none
  | .endName name =>
    if c = '>' then s.close name else if isDelimiter c then none else go (.endName (name ++ [c]))

/-- The state behind a text. -/
def scan (text : List Char) (s : State) : Option State :=
  text.foldlM (step isVoid) s

/-- Whether a text is well-formed markup: it is read to its end, and then no tag and no element is
open. -/
def IsWellFormed (text : String) : Prop :=
  scan isVoid text.toList ⟨.text, []⟩ = some ⟨.text, []⟩

instance (text : String) : Decidable (IsWellFormed isVoid text) :=
  inferInstanceAs (Decidable (_ = _))

example : IsWellFormed (· == ['b', 'r']) "<p id=\"x\" hidden>1 &lt; 2<br></p>" := by decide

example : ¬ IsWellFormed (· == ['b', 'r']) "<p><b>x</p></b>" := by decide

variable {isVoid}

theorem scan_nil (s : State) : scan isVoid [] s = some s := rfl

theorem scan_cons (c : Char) (rest : List Char) (s : State) :
    scan isVoid (c :: rest) s = (step isVoid s c).bind (scan isVoid rest) := rfl

theorem scan_append (a b : List Char) (s : State) :
    scan isVoid (a ++ b) s = (scan isVoid a s).bind (scan isVoid b) := by
  unfold scan
  rw [List.foldlM_append]
  rfl

/-- Two texts one after the other, when the state between them is known. -/
theorem scan_append_of {a b : List Char} {s t u : State} (ha : scan isVoid a s = some t)
    (hb : scan isVoid b t = some u) : scan isVoid (a ++ b) s = some u := by
  rw [scan_append, ha]
  exact hb

/-! ## Inert texts -/

/-- The characters that mean something. -/
def specials : List Char := ['&', '<', '>', '"', '\'']

/-- A text without characters that mean something, except in entities. -/
inductive Inert : List Char → Prop
  | nil : Inert []
  | char {c : Char} {rest : List Char} (hc : c ∉ specials) (h : Inert rest) : Inert (c :: rest)
  | entity {body rest : List Char} (he : body ∈ entities) (h : Inert rest) :
      Inert ('&' :: (body ++ rest))

theorem Inert.of_plain {text : List Char} (h : ∀ c ∈ text, c ∉ specials) : Inert text := by
  induction text with
  | nil => exact .nil
  | cons c rest ih =>
    exact .char (h c (List.mem_cons_self ..)) (ih fun d hd => h d (List.mem_cons_of_mem _ hd))

/-- Where inert texts may stand. -/
inductive Place.Passive : Place → Prop
  | text : Passive .text
  | value (name : List Char) : Passive (.value name)

theorem step_char {place : Place} (hp : place.Passive) {c : Char}
    (hc : c ∉ specials) (stack : List (List Char)) :
    step isVoid ⟨place, stack⟩ c = some ⟨place, stack⟩ := by
  simp only [specials, List.mem_cons, List.not_mem_nil, or_false, not_or] at hc
  cases hp <;> simp [step, inertPlace, hc]

theorem scan_entity {place : Place} (hp : place.Passive) {body : List Char} (he : body ∈ entities)
    (stack : List (List Char)) :
    scan isVoid ('&' :: body) ⟨place, stack⟩ = some ⟨place, stack⟩ := by
  have h : ∀ body ∈ entities,
      scan isVoid body ⟨.entity place entities, stack⟩ = some ⟨place, stack⟩ := by
    simp [entities, scan, step, following]
  rw [scan_cons]
  cases hp <;> exact h body he

/-- **Inert text goes by unnoticed** outside of tags and inside of values. -/
theorem scan_inert {text : List Char} (h : Inert text) {place : Place} (hp : place.Passive)
    (stack : List (List Char)) : scan isVoid text ⟨place, stack⟩ = some ⟨place, stack⟩ := by
  induction h with
  | nil => rfl
  | char hc _ ih => rwa [scan_cons, step_char hp hc]
  | entity he _ ih =>
    rw [← List.cons_append]
    exact scan_append_of (scan_entity hp he stack) ih

/-! ## Tags -/

/-- A text that can be the name of an attribute. -/
def IsName (name : List Char) : Prop :=
  name ≠ [] ∧ ∀ c ∈ name, isDelimiter c = false

/-- A text that can be the name of a tag. -/
def IsTagName (name : List Char) : Prop :=
  IsName name ∧ name.head?.any Text.isAsciiLetter

/-- A place in a start tag where the tag may end or another attribute may follow. -/
inductive Place.InTag (name : List Char) : Place → Prop
  | startName : InTag name (.startName name)
  | attributeName : InTag name (.attributeName name)
  | valueEnd : InTag name (.valueEnd name)

theorem ne_of_delimiter {c d : Char} (hc : isDelimiter c = false) (hd : isDelimiter d = true) :
    c ≠ d := by
  rintro rfl
  rw [hd] at hc
  cases hc

theorem scan_more_startName {more : List Char} (h : ∀ c ∈ more, isDelimiter c = false)
    (name : List Char) (stack : List (List Char)) :
    scan isVoid more ⟨.startName name, stack⟩ = some ⟨.startName (name ++ more), stack⟩ := by
  induction more generalizing name with
  | nil => rw [List.append_nil, scan_nil]
  | cons c more ih =>
    have hc := h c (List.mem_cons_self ..)
    have hmore : ∀ d ∈ more, isDelimiter d = false := fun d hd => h d (List.mem_cons_of_mem _ hd)
    have hstep : step isVoid ⟨.startName name, stack⟩ c =
        some ⟨.startName (name ++ [c]), stack⟩ := by
      simp [step, hc, ne_of_delimiter hc (by decide : isDelimiter '>' = true),
        ne_of_delimiter hc (by decide : isDelimiter ' ' = true)]
    rw [scan_cons, hstep]
    simpa using ih hmore (name ++ [c])

theorem scan_more_endName {more : List Char} (h : ∀ c ∈ more, isDelimiter c = false)
    (name : List Char) (stack : List (List Char)) :
    scan isVoid more ⟨.endName name, stack⟩ = some ⟨.endName (name ++ more), stack⟩ := by
  induction more generalizing name with
  | nil => rw [List.append_nil, scan_nil]
  | cons c more ih =>
    have hc := h c (List.mem_cons_self ..)
    have hmore : ∀ d ∈ more, isDelimiter d = false := fun d hd => h d (List.mem_cons_of_mem _ hd)
    have hstep : step isVoid ⟨.endName name, stack⟩ c = some ⟨.endName (name ++ [c]), stack⟩ := by
      simp [step, hc, ne_of_delimiter hc (by decide : isDelimiter '>' = true)]
    rw [scan_cons, hstep]
    simpa using ih hmore (name ++ [c])

theorem scan_more_attribute {more : List Char} (h : ∀ c ∈ more, isDelimiter c = false)
    (name : List Char) (stack : List (List Char)) :
    scan isVoid more ⟨.attributeName name, stack⟩ = some ⟨.attributeName name, stack⟩ := by
  induction more with
  | nil => rfl
  | cons c more ih =>
    have hc := h c (List.mem_cons_self ..)
    have hmore : ∀ d ∈ more, isDelimiter d = false := fun d hd => h d (List.mem_cons_of_mem _ hd)
    have hstep : step isVoid ⟨.attributeName name, stack⟩ c =
        some ⟨.attributeName name, stack⟩ := by
      simp [step, hc, ne_of_delimiter hc (by decide : isDelimiter '>' = true),
        ne_of_delimiter hc (by decide : isDelimiter ' ' = true),
        ne_of_delimiter hc (by decide : isDelimiter '=' = true)]
    rw [scan_cons, hstep]
    exact ih hmore

theorem scan_opening {name : List Char} (h : IsTagName name) (stack : List (List Char)) :
    scan isVoid ('<' :: name) ⟨.text, stack⟩ = some ⟨.startName name, stack⟩ := by
  obtain ⟨⟨hne, hname⟩, hhead⟩ := h
  obtain ⟨c, more, rfl⟩ := List.exists_cons_of_ne_nil hne
  have hletter : Text.isAsciiLetter c = true := by simpa using hhead
  have hc := hname c (List.mem_cons_self ..)
  have hbang : c ≠ '!' := by
    rintro rfl
    exact absurd hletter (by decide)
  have hstep : step isVoid ⟨.opened, stack⟩ c = some ⟨.startName [c], stack⟩ := by
    simp [step, hletter, hbang, ne_of_delimiter hc (by decide : isDelimiter '/' = true)]
  rw [scan_cons]
  show (step isVoid ⟨.opened, stack⟩ c).bind _ = _
  rw [hstep]
  exact scan_more_startName (fun d hd => hname d (List.mem_cons_of_mem _ hd)) [c] stack

theorem scan_attribute {tag name : List Char} (h : IsName name) {place : Place}
    (hp : place.InTag tag) (stack : List (List Char)) :
    scan isVoid (' ' :: name) ⟨place, stack⟩ = some ⟨.attributeName tag, stack⟩ := by
  obtain ⟨hne, hname⟩ := h
  obtain ⟨c, more, rfl⟩ := List.exists_cons_of_ne_nil hne
  have hc := hname c (List.mem_cons_self ..)
  have hspace : step isVoid ⟨place, stack⟩ ' ' = some ⟨.attribute tag, stack⟩ := by
    cases hp <;> rfl
  have hstep : step isVoid ⟨.attribute tag, stack⟩ c = some ⟨.attributeName tag, stack⟩ := by
    simp [step, hc]
  rw [scan_cons, hspace]
  show (step isVoid ⟨.attribute tag, stack⟩ c).bind _ = _
  rw [hstep]
  exact scan_more_attribute (fun d hd => hname d (List.mem_cons_of_mem _ hd)) tag stack

/-- An attribute with an inert value. -/
theorem scan_assignment {tag name text : List Char} (h : IsName name) (ht : Inert text)
    {place : Place} (hp : place.InTag tag) (stack : List (List Char)) :
    scan isVoid (' ' :: name ++ '=' :: '"' :: text ++ ['"']) ⟨place, stack⟩ =
      some ⟨.valueEnd tag, stack⟩ := by
  have hvalue : scan isVoid ('=' :: '"' :: text) ⟨.attributeName tag, stack⟩ =
      some ⟨.value tag, stack⟩ := scan_inert ht (.value tag) stack
  exact scan_append_of (scan_append_of (scan_attribute h hp stack) hvalue) rfl

theorem scan_enter {name : List Char} {place : Place} (hp : place.InTag name)
    (stack : List (List Char)) :
    scan isVoid ['>'] ⟨place, stack⟩ =
      some ⟨.text, if isVoid name then stack else name :: stack⟩ := by
  cases hp <;> rfl

theorem scan_closing {name : List Char} (h : IsTagName name) (stack : List (List Char)) :
    scan isVoid ('<' :: '/' :: name ++ ['>']) ⟨.text, name :: stack⟩ = some ⟨.text, stack⟩ := by
  obtain ⟨⟨hne, hname⟩, hhead⟩ := h
  obtain ⟨c, more, rfl⟩ := List.exists_cons_of_ne_nil hne
  have hletter : Text.isAsciiLetter c = true := by simpa using hhead
  have hstep : step isVoid ⟨.ended, (c :: more) :: stack⟩ c =
      some ⟨.endName [c], (c :: more) :: stack⟩ := by
    simp [step, hletter]
  have hopen : scan isVoid ('<' :: '/' :: c :: more) ⟨.text, (c :: more) :: stack⟩ =
      some ⟨.endName (c :: more), (c :: more) :: stack⟩ := by
    show (step isVoid ⟨.ended, (c :: more) :: stack⟩ c).bind _ = _
    rw [hstep]
    exact scan_more_endName (fun d hd => hname d (List.mem_cons_of_mem _ hd)) [c] _
  refine scan_append_of hopen ?_
  simp [scan, step, State.close]

theorem scan_doctype (stack : List (List Char)) :
    scan isVoid ('<' :: '!' :: declaration) ⟨.text, stack⟩ = some ⟨.text, stack⟩ := rfl

end Stencil.Markup
