import Stencil.Text.Blank
import Stencil.Text.Word

/-!
# Names in templates

Which names stand for components, and the names that a loop header binds.
-/

namespace Stencil.Source

open Text

/-- The parts of a text between the occurrences of a character. -/
def splitOnChar (mark : Char) : List Char → List (List Char)
  | [] => [[]]
  | c :: rest =>
    if c = mark then [] :: splitOnChar mark rest
    else
      match splitOnChar mark rest with
      | first :: more => (c :: first) :: more
      | [] => [[c]]

/-- A word that begins with a character of some kind. -/
def isWordWith (head : Char → Bool) : List Char → Bool
  | [] => false
  | c :: rest => head c && rest.all isPlainWord

/-- A part of a component name in front of a point: a word that begins with a small letter of ASCII
or an underscore. -/
def isQualifier : List Char → Bool :=
  isWordWith fun c => ('a' ≤ c && c ≤ 'z') || c == '_'

/-- The last part of a component name: a word that begins with a capital of ASCII. -/
def isCapitalized : List Char → Bool :=
  isWordWith fun c => 'A' ≤ c && c ≤ 'Z'

/-- Qualifiers and then a capitalized word. -/
def areComponentParts : List (List Char) → Bool
  | [] => false
  | [last] => isCapitalized last
  | part :: rest => isQualifier part && areComponentParts rest

/-- Whether a name stands for a component: a capitalized word, maybe with qualifiers before it. -/
def isComponentName (name : List Char) : Bool :=
  areComponentParts (splitOnChar '.' name)

/-- The names that a loop header binds, from the text of its target: parentheses around it and
blanks around each name are dropped. -/
def loopNames (target : List Char) : List (List Char) :=
  let inner := (trim target).dropWhile (· == '(')
  let inner := (inner.reverse.dropWhile (· == ')')).reverse
  (splitOnChar ',' inner).map trim

end Stencil.Source
