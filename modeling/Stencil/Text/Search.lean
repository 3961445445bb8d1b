import Stencil.Text.Blank

/-!
# Parts of a text

Looking for a text inside another, replacing it and cutting at it. Occurrences are taken from the
left and do not overlap.
-/

namespace Stencil.Text

/-- Whether `text` begins with `start`. -/
def startsWith (start text : String) : Bool :=
  start.toList.isPrefixOf text.toList

/-- Whether `text` ends with `final`. -/
def endsWith (final text : String) : Bool :=
  final.toList.isSuffixOf text.toList

/-- Whether `part` occurs in a text. -/
def occursIn (part : List Char) : List Char → Bool
  | [] => part.isEmpty
  | c :: rest => part.isPrefixOf (c :: rest) || occursIn part rest

/-- The pieces of the rest of a text, cut at most `cuts` times. `piece` holds, in reverse, the
characters since the last occurrence of the separator; the next `skip` characters belong to that
occurrence. -/
def splitFrom (separator : List Char) (cuts : Nat) (piece : List Char) (skip : Nat) :
    List Char → List (List Char)
  | [] => [piece.reverse]
  | c :: rest =>
    match skip, cuts with
    | skip + 1, _ => splitFrom separator cuts piece skip rest
    | 0, 0 => splitFrom separator 0 (c :: piece) 0 rest
    | 0, cuts + 1 =>
      if separator.isPrefixOf (c :: rest) then
        piece.reverse :: splitFrom separator cuts [] (separator.length - 1) rest
      else splitFrom separator (cuts + 1) (c :: piece) 0 rest

/-- The pieces of a text between the first `cuts` occurrences of a separator that is not empty. -/
def splitAtMost (separator : List Char) (cuts : Nat) (text : List Char) : List (List Char) :=
  splitFrom separator cuts [] 0 text

/-- The text with `new` in front of each of the first `count` characters, and at the end if there
are fewer. -/
def interleave (new : List Char) : Nat → List Char → List Char
  | 0, text => text
  | _ + 1, [] => new
  | count + 1, c :: rest => new ++ c :: interleave new count rest

/-- The text with `new` for the first `count` occurrences of `old`. An empty `old` occurs before
every character and at the end. -/
def replaceAtMost (old new : List Char) (count : Nat) (text : List Char) : List Char :=
  if old.isEmpty then interleave new count text
  else new.intercalate (splitAtMost old count text)

/-- The words of a text; after `cuts` of them, the rest of the text is one piece. -/
def wordsAtMost : Nat → List Char → List (List Char)
  | cuts, text =>
    match cuts, trimStart text with
    | _, [] => []
    | 0, rest => [rest]
    | cuts + 1, rest =>
      rest.takeWhile (!isBlank ·) :: wordsAtMost cuts (rest.dropWhile (!isBlank ·))

/-- The text without the characters of a set at either end. -/
def trimSet (set text : List Char) : List Char :=
  ((text.dropWhile set.contains).reverse.dropWhile set.contains).reverse

end Stencil.Text
