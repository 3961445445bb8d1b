import Stencil.Source.Classes
import Stencil.Source.Collapsed
import Stencil.Source.Maud
import Stencil.Source.Names
import Stencil.Source.Rsx
import Stencil.Text.Quoted

/-!
# Reading templates

A source is first recognized as a surface tree of its dialect; then expressions are read and texts
are decoded, in document order, what stands inside a node before the node itself. The first fault
in this order is the one that is reported, and a source that no surface tree fits is refused before
anything in it is looked at.
-/

namespace Stencil.Source

/-! ## Recognition -/

/-- The grammar of a dialect, for sources that nest at most so deep. -/
def grammar (dialect : Dialect) (depth : Nat) : Matcher (List Surface) :=
  match dialect with
  | .rsx => Rsx.document depth
  | .maud => Maud.document depth

/-- The error for a source that failed at an offset. -/
def Failure.error (dialect : Dialect) (source : List Char) (f : Failure) : SourceError :=
  ⟨.unexpected f.rule (Found.ofRest (source.drop f.offset)) dialect,
    some (Location.ofOffset source f.offset)⟩

/-- The surface tree of a source. A source nests less deep than it has characters. -/
def recognize (dialect : Dialect) (source : List Char) : Except SourceError (List Surface) :=
  match grammar dialect (source.length + 1) ⟨0, source⟩ with
  | ⟨some (nodes, _), _⟩ => .ok nodes
  | ⟨none, furthest⟩ => .error ((furthest.getD ⟨0, .document⟩).error dialect source)

theorem recognize_eq_ok {dialect : Dialect} {source : List Char} {nodes : List Surface}
    (h : recognize dialect source = .ok nodes) :
    ∃ c, (grammar dialect (source.length + 1) ⟨0, source⟩).result = some (nodes, c) := by
  unfold recognize at h
  split at h
  · next found c furthest hfound =>
    cases h
    exact ⟨c, congrArg Outcome.result hfound⟩
  · cases h

/-! ## From surface trees to trees -/

section

variable (source : List Char)

/-- The location of an offset in the source. -/
def locate (offset : Nat) : Option Location :=
  some (Location.ofOffset source offset)

/-- The expression that a lexeme spells. -/
def readExpr (l : Lexeme) : Except SourceError Expr :=
  Expr.ofSource l.text (locate source l.offset)

/-- The text between the quotes of a lexeme. -/
def Lexeme.unwrapped (l : Lexeme) : String :=
  String.ofList (l.chars.drop 1).dropLast

/-- The decoded text of a quoted lexeme. -/
def Lexeme.decoded (l : Lexeme) : String :=
  String.ofList (Text.unquote l.chars)

/-- The value of an attribute. One without a value is always on. -/
def readValue (name : Lexeme) : Option SurfaceValue → Except SourceError Content
  | none => do return .toggle (← Expr.ofSource "True" (locate source name.offset))
  | some (.quoted literal) => .ok (.literal literal.unwrapped)
  | some (.single literal) => .error ⟨.singleQuoted literal.text, locate source literal.offset⟩
  | some (.expr body) => do return .dynamic (← readExpr source body) false
  | some (.toggle body) => do return .toggle (← readExpr source body)

/-- An attribute. -/
def readAttribute (a : SurfaceAttribute) : Except SourceError Attribute := do
  return ⟨a.name.text, ← readValue source a.name a.value, locate source a.name.offset⟩

/-- The value of a class or id mark. -/
def readShortValue : ShortValue → Except SourceError Content
  | .name text => .ok (.literal text.text)
  | .quoted literal => .ok (.literal literal.decoded)
  | .expr body => do return .dynamic (← readExpr source body) false

/-- A class or an id as an attribute. -/
def readShorthand (s : Shorthand) : Except SourceError Attribute := do
  return ⟨if s.isClass then "class" else "id", ← readShortValue source s.value,
    locate source s.offset⟩

/-- The attributes of an element with what stands in front of them. -/
def readAttributes (shorthands : List Shorthand) (attributes : List SurfaceAttribute) :
    Except SourceError (List Attribute × Bool) := do
  let front ← shorthands.mapM (readShorthand source)
  let back ← attributes.mapM (readAttribute source)
  return (front ++ back, !front.isEmpty)

/-- The attributes as the element has them: with their classes joined, if there is anything in
front. -/
def settleClasses : List Attribute × Bool → Except SourceError (List Attribute)
  | (attributes, true) => mergeClasses attributes
  | (attributes, false) => .ok attributes

/-- A closing tag has to repeat the name of the element. -/
def checkClosing (name : Lexeme) : Option Lexeme → Except SourceError Unit
  | none => .ok ()
  | some closing =>
    if closing.chars = name.chars then .ok ()
    else
      -- the tag begins with the bracket in front of its name
      let at_ := Location.ofOffset source name.offset
      .error ⟨.closingTag name.text closing.text { at_ with column := at_.column - 1 },
        locate source closing.offset⟩

/-- An element or, if the name says so, a component. -/
def makeElement (offset : Nat) (name : Lexeme) (attributes : List Attribute)
    (children : List Node) : Except SourceError Node := do
  if isComponentName name.chars then
    return .component (← readExpr source name) attributes children (locate source offset)
  return .element name.text attributes children false (locate source offset)

/-- What is made of an element has its attributes, its children and its place. -/
theorem makeElement_eq_ok {offset : Nat} {name : Lexeme} {attributes : List Attribute}
    {children : List Node} {n : Node}
    (h : makeElement source offset name attributes children = .ok n) :
    (∃ reference, readExpr source name = .ok reference ∧
      n = .component reference attributes children (locate source offset)) ∨
    n = .element name.text attributes children false (locate source offset) := by
  unfold makeElement at h
  split at h
  · cases hread : readExpr source name with
    | error e =>
      rw [hread] at h
      cases h
    | ok reference =>
      rw [hread] at h
      cases h
      exact .inl ⟨reference, rfl, rfl⟩
  · cases h
    exact .inr rfl

mutual

/-- The nodes that a surface node stands for. -/
def readNode : Surface → Except SourceError (List Item)
  | .comment => .ok []
  | .doctype offset => .ok [.node (.doctype (locate source offset))]
  | .group nodes => readNodes nodes
  | .raw offset body => do
    return [.node (.text (.dynamic (← readExpr source body) true) (locate source offset))]
  | .choice offset branches last => do
    let branches ← readBranches branches
    let last ← match last with
      | none => pure []
      | some body => do pure [(none, blockNodes (← readNodes body))]
    return [.node (.choice (branches ++ last) (locate source offset))]
  | .each offset names iterable body => do
    let iterable ← readExpr source iterable
    let body ← readNodes body
    return [.node (.each ((loopNames names.chars).map String.ofList) iterable (blockNodes body)
      (locate source offset))]
  | .cases offset subject arms => do
    let subject ← readExpr source subject
    return [.node (.cases subject (← readArms arms) (locate source offset))]
  | .element offset name shorthands attributes children closing => do
    let attributes ← readAttributes source shorthands attributes
    let children ← readNodes children
    -- classes are joined last: everything else that is wrong inside is reported first
    checkClosing source name closing
    let attributes ← settleClasses attributes
    return [.node (← makeElement source offset name attributes (childNodes children))]
  | .splice offset body => do
    return [.node (.text (.dynamic (← readExpr source body) false) (locate source offset))]
  | .quoted literal =>
    .ok [.node (.text (.literal literal.decoded) (locate source literal.offset))]
  | .plain text =>
    .ok [.plain (Text.collapse text.chars) (locate source text.offset)]
  | .number text => .ok [.node (.text (.literal text.text) (locate source text.offset))]

/-- The nodes that a list of surface nodes stands for. -/
def readNodes : List Surface → Except SourceError (List Item)
  | [] => .ok []
  | node :: rest => do
    let first ← readNode node
    return first ++ (← readNodes rest)

/-- Conditions with their bodies. -/
def readBranches :
    List (Lexeme × List Surface) → Except SourceError (List (Option Expr × List Node))
  | [] => .ok []
  | (test, body) :: rest => do
    let test ← readExpr source test
    let body ← readNodes body
    return (some test, blockNodes body) :: (← readBranches rest)

/-- Patterns with their bodies. -/
def readArms :
    List (Option Lexeme × List Surface) → Except SourceError (List (Option Expr × List Node))
  | [] => .ok []
  | (none, body) :: rest => do
    let body ← readNodes body
    return (none, blockNodes body) :: (← readArms rest)
  | (some pattern, body) :: rest => do
    let pattern ← readExpr source pattern
    let body ← readNodes body
    return (some pattern, blockNodes body) :: (← readArms rest)

end

end

/-- The tree of a source, given as a list of characters. -/
def readChars (dialect : Dialect) (source : List Char) : Except SourceError (List Node) := do
  let surface ← recognize dialect source
  return childNodes (← readNodes source surface)

/-- The tree of a source. -/
def read (dialect : Dialect) (source : String) : Except SourceError (List Node) :=
  readChars dialect source.toList

end Stencil.Source
