import Stencil.Source.Match

/-!
# Surface trees

What the grammars recognize, before expressions are read and texts are decoded: pieces of the
source with their offsets. One type serves both dialects; each uses some of its constructors.
-/

namespace Stencil.Source

/-- A value of an attribute as it is written. -/
inductive SurfaceValue where
  /-- Text in double quotes. -/
  | quoted (literal : Lexeme)
  /-- Text in single quotes, which is refused later. -/
  | single (literal : Lexeme)
  | expr (body : Lexeme)
  | toggle (body : Lexeme)

/-- An attribute as it is written, maybe without a value. -/
structure SurfaceAttribute where
  name : Lexeme
  value : Option SurfaceValue

/-- The value of a class or id mark. -/
inductive ShortValue where
  | name (text : Lexeme)
  | quoted (literal : Lexeme)
  | expr (body : Lexeme)

/-- A class or an id in front of the attributes. -/
structure Shorthand where
  offset : Nat
  isClass : Bool
  value : ShortValue

/-- A node as it is written. -/
inductive Surface where
  | comment
  | doctype (offset : Nat)
  /-- Nodes that stand for themselves. -/
  | group (nodes : List Surface)
  | raw (offset : Nat) (body : Lexeme)
  /-- Conditions with their bodies, and the body that has no condition. -/
  | choice (offset : Nat) (branches : List (Lexeme × List Surface)) (last : Option (List Surface))
  | each (offset : Nat) (names : Lexeme) (source : Lexeme) (body : List Surface)
  /-- A subject with patterns and their bodies; the wildcard is no pattern. -/
  | cases (offset : Nat) (subject : Lexeme) (arms : List (Option Lexeme × List Surface))
  /-- An element or a component; a tag that has children has a closing name. -/
  | element (offset : Nat) (name : Lexeme) (shorthands : List Shorthand)
      (attributes : List SurfaceAttribute) (children : List Surface) (closing : Option Lexeme)
  | splice (offset : Nat) (body : Lexeme)
  | quoted (literal : Lexeme)
  /-- Text between tags. -/
  | plain (text : Lexeme)
  | number (text : Lexeme)

end Stencil.Source
