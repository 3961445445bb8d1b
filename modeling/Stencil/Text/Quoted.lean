/-!
# Quoted text in templates

Text between double quotes spells newline and tab as `\n` and `\t`; any other character may stand
for itself or after a backslash. The decoder takes the outer quotes for granted and drops the
first and the last character.
-/

namespace Stencil.Text

/-- The character that a backslash and `c` stand for. -/
def escaped (c : Char) : Char :=
  if c = 'n' then '\n' else if c = 't' then '\t' else c

/-- The text that a spelling stands for. A backslash at the very end stands for itself. -/
def decodeSpelling : List Char → List Char
  | [] => []
  | '\\' :: c :: rest => escaped c :: decodeSpelling rest
  | c :: rest => c :: decodeSpelling rest

/-- The text of a quoted literal. -/
def unquote (literal : List Char) : List Char :=
  decodeSpelling (literal.drop 1).dropLast

/-- The text of a quoted literal, as a string. -/
def unquoteString (literal : String) : String :=
  String.ofList (unquote literal.toList)

end Stencil.Text
