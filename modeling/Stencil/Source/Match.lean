import Stencil.Source.Rule

/-!
# Matching with the furthest failure

A matcher reads from a cursor and either succeeds with a value and a later cursor or fails. Apart
from that it reports the furthest failure of a rule it has come across, also on the way to success:
if the whole source is refused in the end, that is what the message is about. Of two failures at
one offset the later counts.

Choice is ordered, and repetition takes all it can; neither is tried at the end of the text.
-/

namespace Stencil.Source

/-- A place to read from: an offset and what follows it. -/
structure Cursor where
  offset : Nat
  rest : List Char

/-- A piece of the source with the offset it begins at. -/
structure Lexeme where
  offset : Nat
  chars : List Char
deriving DecidableEq, Repr

/-- The text of a lexeme. -/
def Lexeme.text (l : Lexeme) : String :=
  String.ofList l.chars

/-- A rule that failed at an offset. -/
structure Failure where
  offset : Nat
  rule : Rule
deriving DecidableEq, Repr

/-- The one that counts of two failures, the second being the later. -/
def laterFailure : Option Failure → Option Failure → Option Failure
  | some a, some b => if a.offset ≤ b.offset then some b else some a
  | some a, none => some a
  | none, b => b

/-- What came of matching. -/
structure Outcome (α : Type) where
  result : Option (α × Cursor)
  furthest : Option Failure

/-- A matcher of values. -/
def Matcher (α : Type) := Cursor → Outcome α

namespace Matcher

variable {α β : Type}

/-- Succeed without reading. -/
protected def pure (a : α) : Matcher α := fun c => ⟨some (a, c), none⟩

/-- Match one after the other. -/
protected def bind (p : Matcher α) (f : α → Matcher β) : Matcher β := fun c =>
  match p c with
  | ⟨none, furthest⟩ => ⟨none, furthest⟩
  | ⟨some (a, c'), furthest⟩ =>
    let next := f a c'
    ⟨next.result, laterFailure furthest next.furthest⟩

instance : Monad Matcher where
  pure := Matcher.pure
  bind := Matcher.bind

/-- Fail without naming a rule. -/
def fail : Matcher α := fun _ => ⟨none, none⟩

/-- The second matcher where the first fails. -/
def orElse (p q : Matcher α) : Matcher α := fun c =>
  match p c with
  | ⟨none, furthest⟩ =>
    let next := q c
    ⟨next.result, laterFailure furthest next.furthest⟩
  | success => success

/-- The first matcher that succeeds. -/
def firstOf (choices : List (Matcher α)) : Matcher α :=
  choices.foldr orElse fail

/-- Name a matcher: where it fails, the rule has failed at the start. -/
def named (rule : Rule) (p : Matcher α) : Matcher α := fun c =>
  match p c with
  | ⟨none, furthest⟩ => ⟨none, laterFailure furthest (some ⟨c.offset, rule⟩)⟩
  | success => success

/-- The offset of the cursor. -/
def offset : Matcher Nat := fun c => ⟨some (c.offset, c), none⟩

/-- Read as many characters as the scanner says; it is given the rest of the text. -/
def scan (scanner : List Char → Option Nat) : Matcher Lexeme := fun c =>
  match scanner c.rest with
  | none => ⟨none, none⟩
  | some n => ⟨some (⟨c.offset, c.rest.take n⟩, ⟨c.offset + n, c.rest.drop n⟩), none⟩

/-- A scanner that is a rule. -/
def token (rule : Rule) (scanner : List Char → Option Nat) : Matcher Lexeme :=
  named rule (scan scanner)

/-- The source that a matcher reads. -/
def lexeme (p : Matcher α) : Matcher Lexeme := fun c =>
  match p c with
  | ⟨none, furthest⟩ => ⟨none, furthest⟩
  | ⟨some (_, c'), furthest⟩ =>
    ⟨some (⟨c.offset, c.rest.take (c'.offset - c.offset)⟩, c'), furthest⟩

/-- At most one. -/
def optional (p : Matcher α) : Matcher (Option α) := fun c =>
  if c.rest.isEmpty then ⟨some (none, c), none⟩
  else
    match p c with
    | ⟨none, furthest⟩ => ⟨some (none, c), furthest⟩
    | ⟨some (a, c'), furthest⟩ => ⟨some (some a, c'), furthest⟩

/-- As many as there are, at most so many. -/
def manyUpTo (p : Matcher α) : Nat → Matcher (List α)
  | 0 => Matcher.pure []
  | n + 1 => Matcher.bind (optional p) fun
    | none => Matcher.pure []
    | some a => Matcher.bind (manyUpTo p n) fun rest => Matcher.pure (a :: rest)

/-- As many as there are. Each reads a character at least, so the rest of the text bounds their
number. -/
def many (p : Matcher α) : Matcher (List α) := fun c =>
  manyUpTo p c.rest.length c

/-- One or more; none at the end of the text. -/
def some1 (p : Matcher α) : Matcher (List α) := fun c =>
  if c.rest.isEmpty then ⟨none, none⟩
  else Matcher.bind p (fun a => Matcher.bind (many p) fun rest => Matcher.pure (a :: rest)) c

end Matcher

end Stencil.Source
