import Stencil.Render.Run

/-!
# Responses

A response carries markup with a status and a content type.
-/

namespace Stencil

/-- A response to a request. -/
structure Response where
  status : Int
  contentType : String
  content : String
deriving DecidableEq, Repr

namespace Response

/-- The content type of markup. -/
def markupType : String := "text/html; charset=utf-8"

/-- The status of success. -/
def success : Int := 200

/-- The status that a value stands for: success, if it is `None`, else an integer or what can be
converted to one. -/
def statusOf (v : Value) : Except Fault Int :=
  match v with
  | .none => .ok success
  | v =>
    match v.toInteger with
    | .ok n => n.integer
    | .error .overflow => .error .overflow
    | .error _ => .error .wrongType

/-! ## Content types -/

/-- The text after the first occurrence of a mark that is followed by blanks and a word, the case of
letters aside. -/
def afterWord? (word : List Char) : List Char → Option (List Char)
  | [] => none
  | c :: rest =>
    let found := rest.dropWhile Text.isBlank
    if c == ';' && word.isPrefixOf (found.map Char.toLower) then some (found.drop word.length)
    else afterWord? word rest

/-- The character set that a content type names, in small letters. -/
def charset? (contentType : String) : Option String :=
  (afterWord? "charset=".toList contentType.toList).map fun rest =>
    String.ofList (((rest.takeWhile fun c => !Text.isBlank c && c != ';').filter (· != '"')).map
      Char.toLower)

/-- The least number of a character that a set does not have; `none` if it has all. -/
def charsetEnd? (name : String) : Option Nat :=
  if ["ascii", "us-ascii"].contains name then some 128
  else if ["latin-1", "latin1", "iso-8859-1"].contains name then some 256
  else none

/-- Whether a content type can hold a text. No set has a half of a character. -/
def canHold (contentType text : String) : Bool :=
  let limit := ((charset? contentType).bind charsetEnd?).getD 0x110000
  text.toList.all fun c => c.toNat < limit && !Text.isHalf c

/-- The content type that a value stands for: that of markup, if it is `None`, else its text. -/
def typeOf (v : Value) : Except Fault String :=
  match v with
  | .none => .ok markupType
  | v => v.text

/-! ## Making responses -/

/-- The response with a value as its content. The value becomes markup before the content type and
the status are looked at; the status has to be a number of three digits below 600. -/
def ofValue (v status contentType : Value) : Render Response := do
  let content ← Render.toMarkup v
  let contentType ← Render.result (typeOf contentType)
  if contentType.contains '\n' || contentType.contains '\r' then throw .brokenHeader
  let status ← Render.result (statusOf status)
  if status < 100 || 599 < status then throw .wrongValue
  let text ← Render.result content.text
  if !canHold contentType text then throw .unencodable
  return ⟨status, contentType, text⟩

/-- The response with the text of a template as its content. -/
def ofTemplate (t : Template) (context : Scope) (status : Value) : Render Response := do
  let text ← Render.templateText t context
  ofValue (.rendered .fresh text) status .none

end Response

end Stencil
