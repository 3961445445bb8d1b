import Stencil.Text.Tables
import Stencil.Text.Word

/-!
# Capital and small forms of a text

Every character is mapped on its own, except that a capital sigma at the end of a word has a form
of its own.
-/

namespace Stencil.Text

/-- The image of a code point under the run it lies in, if any. -/
def caseImage? (runs : List CaseRun) (n : Nat) : Option Char :=
  (runs.find? fun run => run.first ≤ n && n ≤ run.last && (n - run.first) % run.step == 0).map
    fun run => Char.ofNat (Int.ofNat n + run.offset).toNat

/-- The capital form of a character, which may have several characters. -/
def capital (c : Char) : List Char :=
  if c.toNat < 128 then
    if 'a' ≤ c && c ≤ 'z' then [Char.ofNat (c.toNat - 32)] else [c]
  else
    match capitalExpansions.lookup c.toNat with
    | some expansion => expansion.map Char.ofNat
    | none => [(caseImage? capitalRuns c.toNat).getD c]

/-- The small form of a character, which may have several characters. -/
def small (c : Char) : List Char :=
  if c.toNat < 128 then
    if 'A' ≤ c && c ≤ 'Z' then [Char.ofNat (c.toNat + 32)] else [c]
  else if c.toNat == 0x130 then ['i', Char.ofNat 0x307]
  else [(caseImage? smallRuns c.toNat).getD c]

/-- Whether a character is capital or small. -/
def isCased (c : Char) : Bool :=
  capital c != [c] || small c != [c] || singleCaseRanges.has c

/-- Whether a character is passed over when the end of a word is looked for. -/
def isTransparent (c : Char) : Bool :=
  transparentRanges.has c

/-- Whether the next character that counts is capital or small. -/
def meetsCased (text : List Char) : Bool :=
  (text.dropWhile isTransparent).head?.any isCased

/-- The text in capitals. -/
def upper (text : List Char) : List Char :=
  text.flatMap capital

/-- The text in small letters; `inWord` tells whether the last character before it that counts is
capital or small. A capital sigma there becomes the final sigma, unless the word goes on. -/
def lowerFrom (inWord : Bool) : List Char → List Char
  | [] => []
  | c :: rest =>
    let form :=
      if c.toNat == 0x3A3 && inWord && !meetsCased rest then [Char.ofNat 0x3C2] else small c
    let inWord := if isTransparent c then inWord else isCased c
    form ++ lowerFrom inWord rest

/-- The text in small letters. -/
def lower (text : List Char) : List Char :=
  lowerFrom false text

end Stencil.Text
