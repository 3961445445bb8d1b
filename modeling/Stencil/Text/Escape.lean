/-!
# Escaping

Plain text is made safe for element content and for attribute values by writing five characters
as entities. The replacements run over the whole text one after the other; the ampersand comes
first, so no replacement touches what an earlier one wrote.
-/

namespace Stencil.Text

/-- Write `entity` for every occurrence of `special`. -/
def replaceChar (special : Char) (entity : List Char) (text : List Char) : List Char :=
  text.flatMap fun c => if c = special then entity else [c]

/-- The five replacements, in order. -/
def escapeChars (text : List Char) : List Char :=
  replaceChar '\'' ['&', '#', 'x', '2', '7', ';']
    (replaceChar '"' ['&', 'q', 'u', 'o', 't', ';']
      (replaceChar '>' ['&', 'g', 't', ';']
        (replaceChar '<' ['&', 'l', 't', ';']
          (replaceChar '&' ['&', 'a', 'm', 'p', ';'] text))))

/-- A string as markup that shows it. -/
def escape (text : String) : String :=
  String.ofList (escapeChars text.toList)

end Stencil.Text
