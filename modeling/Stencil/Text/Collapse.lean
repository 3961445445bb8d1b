import Stencil.Text.Blank

/-!
# Collapsing white space

Plain text in a template is laid out for its reader. `collapse` keeps what matters to the output:
an inner run of blanks becomes one space, and a run at either end becomes one space or, if it
contains a newline, nothing. A text of blanks only is one leading run.
-/

namespace Stencil.Text

/-- What is left of a run of blanks at the edge of a text. -/
def edge (run : List Char) : List Char :=
  if run.isEmpty || run.contains '\n' then [] else [' ']

/-- Every run of blanks becomes one space. -/
def squeeze : List Char → List Char
  | [] => []
  | c :: rest =>
    if !isBlank c then c :: squeeze rest
    else if (rest.head?.map isBlank).getD false then squeeze rest
    else ' ' :: squeeze rest

/-- Normal form of plain text. -/
def collapse (text : List Char) : List Char :=
  let body := trimStart text
  let core := trimEnd body
  edge (text.takeWhile isBlank) ++ squeeze core ++ edge (body.drop core.length)

/-- Normal form of a plain string. -/
def collapseString (text : String) : String :=
  String.ofList (collapse text.toList)

end Stencil.Text
