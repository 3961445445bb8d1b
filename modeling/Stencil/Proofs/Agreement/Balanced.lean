import Stencil.Proofs.Agreement.Scanners
import Stencil.Proofs.Agreement.Takes
import Stencil.Source.Embedded

/-!
# Balanced texts

A text is balanced if its brackets and quotes come in pairs, where brackets in strings do not count
(`Balanced`). Between a pair of brackets a balanced text is taken as a whole, however deep it
nests; in front of a block it is, if it has no brace outside of brackets and strings.

A text is taken piece by piece: a string, a pair of brackets with what it holds, or as much code as
there is (`takesAll_balanced`).
-/

namespace Stencil.Source

open Matcher

/-! ## Balance -/

/-- The characters that open or close something. -/
def delimiters : List Char :=
  ['(', ')', '{', '}', '[', ']', '"', '\'']

/-- The bracket that closes what a bracket opens. -/
def closing? : Char → Option Char
  | '(' => some ')'
  | '[' => some ']'
  | '{' => some '}'
  | _ => none

/-- A text that can stand between two quotes. It is on one line, and a backslash takes the next
character along. -/
inductive IsStringBody (quote : Char) : List Char → Prop
  | nil : IsStringBody quote []
  | escaped {c : Char} {s : List Char} (hline : c ≠ '\n') (h : IsStringBody quote s) :
    IsStringBody quote ('\\' :: c :: s)
  | plain {c : Char} {s : List Char} (hquote : c ≠ quote) (hescape : c ≠ '\\') (hline : c ≠ '\n')
    (h : IsStringBody quote s) : IsStringBody quote (c :: s)

/-- A text whose brackets and quotes come in pairs; `braces` tells whether a brace may stand outside
of brackets. -/
inductive Balanced : Bool → List Char → Prop
  | nil {braces : Bool} : Balanced braces []
  | code {braces : Bool} {c : Char} {s : List Char} (hc : c ∉ delimiters) (h : Balanced braces s) :
    Balanced braces (c :: s)
  | string {braces : Bool} {quote : Char} {body s : List Char}
    (hquote : quote = '"' ∨ quote = '\'') (hbody : IsStringBody quote body)
    (h : Balanced braces s) : Balanced braces (quote :: (body ++ quote :: s))
  | group {braces : Bool} {opening closing : Char} {inner s : List Char}
    (hpair : closing? opening = some closing) (hbraces : opening = '{' → braces = true)
    (hinner : Balanced true inner) (h : Balanced braces s) :
    Balanced braces (opening :: (inner ++ closing :: s))

theorem closing?_eq_some {opening closing : Char} (h : closing? opening = some closing) :
    (opening = '(' ∧ closing = ')') ∨ (opening = '[' ∧ closing = ']') ∨
      (opening = '{' ∧ closing = '}') := by
  unfold closing? at h
  split at h
  · exact .inl ⟨rfl, (Option.some.inj h).symm⟩
  · exact .inr (.inl ⟨rfl, (Option.some.inj h).symm⟩)
  · exact .inr (.inr ⟨rfl, (Option.some.inj h).symm⟩)
  · cases h

theorem isCode_iff {c : Char} : isCode c = true ↔ c ∉ delimiters := by
  simp [isCode, delimiters, and_assoc]

variable {braces : Bool} {s t : List Char}

namespace Balanced

theorem mono (h : Balanced false s) : Balanced true s := by
  generalize hflag : false = braces at h
  induction h with
  | nil => exact .nil
  | code hc _ ih => exact .code hc (ih hflag)
  | string hquote hbody _ ih => exact .string hquote hbody (ih hflag)
  | group hpair _ hinner _ _ ih => exact .group hpair (fun _ => rfl) hinner (ih hflag)

theorem append (hs : Balanced braces s) (ht : Balanced braces t) : Balanced braces (s ++ t) := by
  induction hs with
  | nil => exact ht
  | code hc _ ih => exact .code hc (ih ht)
  | string hquote hbody _ ih =>
    rw [List.cons_append, List.append_assoc, List.cons_append]
    exact .string hquote hbody (ih ht)
  | group hpair hbraces hinner _ _ ih =>
    rw [List.cons_append, List.append_assoc, List.cons_append]
    exact .group hpair hbraces hinner (ih ht)

theorem of_code (h : ∀ c ∈ s, isCode c) : Balanced braces s := by
  induction s with
  | nil => exact .nil
  | cons c s ih =>
    obtain ⟨hc, hs⟩ := List.forall_mem_cons.mp h
    exact .code (isCode_iff.mp hc) (ih hs)

/-- A balanced text begins with all the code up to a string, a bracket or its end. -/
theorem exists_code (h : Balanced braces s) : ∃ run rest, s = run ++ rest ∧
    (∀ c ∈ run, isCode c) ∧ Stops isCode rest ∧ Balanced braces rest := by
  induction h with
  | nil => exact ⟨[], [], rfl, List.forall_mem_nil _, rfl, .nil⟩
  | code hc _ ih =>
    obtain ⟨run, rest, rfl, hrun, hstops, hrest⟩ := ih
    exact ⟨_ :: run, rest, rfl, List.forall_mem_cons.mpr ⟨isCode_iff.mpr hc, hrun⟩, hstops, hrest⟩
  | string hquote hbody h _ =>
    refine ⟨[], _, rfl, List.forall_mem_nil _, ?_, .string hquote hbody h⟩
    rcases hquote with rfl | rfl <;> rfl
  | group hpair hbraces hinner h _ _ =>
    refine ⟨[], _, rfl, List.forall_mem_nil _, ?_, .group hpair hbraces hinner h⟩
    obtain ⟨rfl, -⟩ | ⟨rfl, -⟩ | ⟨rfl, -⟩ := closing?_eq_some hpair <;> rfl

end Balanced

/-! ## Pieces -/

theorem run1_append {p : Char → Bool} {s t : List Char} (hne : s ≠ []) (hs : ∀ c ∈ s, p c)
    (ht : Stops p t) : run1 p (s ++ t) = some s.length := by
  have hlength := List.length_pos_iff.mpr hne
  simp [run1, run_append hs ht, hne]

theorem run1_none {p : Char → Bool} {t : List Char} (ht : Stops p t) : run1 p t = none := by
  have hrun : run p t = 0 := run_append (List.forall_mem_nil _) ht
  simp [run1, hrun]

theorem exprString_none {c : Char} (hdouble : c ≠ '"') (hsingle : c ≠ '\'') (t : List Char) :
    exprString (c :: t) = none := by
  unfold exprString
  split
  · next h =>
    cases h
    exact absurd rfl hdouble
  · next h =>
    cases h
    exact absurd rfl hsingle
  · rfl

theorem quotedRest_append {quote : Char} (hquote : quote ≠ '\\') {body : List Char}
    (h : IsStringBody quote body) (t : List Char) :
    quotedRest quote false (body ++ quote :: t) = some (body.length + 1) := by
  induction h with
  | nil =>
    rw [List.nil_append, quotedRest]
    · simp
    · intro c rest hc
      exact absurd hc hquote
  | escaped hline _ ih =>
    rw [List.cons_append, List.cons_append, quotedRest, if_neg (by simpa using hline), ih]
    rfl
  | plain hother hescape hline _ ih =>
    rw [List.cons_append, quotedRest]
    · simp [hother, hescape, hline, ih]
    · intro c rest hc
      exact absurd hc hescape

theorem exprString_append {quote : Char} (hquote : quote = '"' ∨ quote = '\'') {body : List Char}
    (h : IsStringBody quote body) (t : List Char) :
    exprString (quote :: (body ++ quote :: t)) = some (body.length + 2) := by
  rcases hquote with rfl | rfl
  · rw [exprString, quotedRest_append (by decide) h]
    rfl
  · rw [exprString, quotedRest_append (by decide) h]
    rfl

theorem refuses_stringPiece {c : Char} (hdouble : c ≠ '"') (hsingle : c ≠ '\'') (t : List Char) :
    stringPiece.Refuses (c :: t) :=
  (Refuses.token (exprString_none hdouble hsingle t)).bind

theorem takes_stringPiece {quote : Char} (hquote : quote = '"' ∨ quote = '\'') {body : List Char}
    (h : IsStringBody quote body) (t : List Char) :
    stringPiece.Takes (quote :: (body ++ [quote])) t fun _ => True := by
  refine (Takes.token ?_).map fun _ _ => trivial
  have htext : quote :: (body ++ [quote]) ++ t = quote :: (body ++ quote :: t) := by simp
  rw [htext, exprString_append hquote h]
  simp

theorem refuses_bracketed (rule : Rule) {opening c : Char} (h : opening ≠ c) (closing : Char)
    (body : Matcher Unit) (t : List Char) :
    (bracketed rule opening closing body).Refuses (c :: t) :=
  (Refuses.scan (literal_ne h [] t)).bind.named rule

theorem takes_bracketed (rule : Rule) (opening : Char) {closing : Char} {body : Matcher Unit}
    (h : body.Takes s (closing :: t) fun _ => True) :
    (bracketed rule opening closing body).Takes (opening :: (s ++ [closing])) t fun _ => True := by
  refine Takes.named _ (Takes.bind (s := [opening]) (Takes.scan (literal_append _ _)) fun _ _ => ?_)
  exact h.bind fun _ _ => (Takes.scan (literal_append [closing] t)).map fun _ _ => trivial

/-- Neither a string nor a bracket begins with the character. -/
def IsFlat (c : Char) : Prop :=
  c ≠ '"' ∧ c ≠ '\'' ∧ '(' ≠ c ∧ '[' ≠ c

theorem isFlat_code {c : Char} (h : isCode c) : IsFlat c ∧ '{' ≠ c := by
  have hc := isCode_iff.mp h
  simp only [delimiters, List.mem_cons, not_or] at hc
  obtain ⟨hparen, -, hbrace, -, hbracket, -, hdouble, hsingle, -⟩ := hc
  exact ⟨⟨hdouble, hsingle, Ne.symm hparen, Ne.symm hbracket⟩, Ne.symm hbrace⟩

/-- A string, parentheses or brackets, given the matcher of what they hold. -/
def closedChoices (inner : Matcher Unit) : List (Matcher Unit) :=
  [stringPiece, bracketed .exprParens '(' ')' inner, bracketed .exprBrackets '[' ']' inner]

theorem refuses_closedChoices (inner : Matcher Unit) {c : Char} (h : IsFlat c) (t : List Char) :
    ∀ p ∈ closedChoices inner, p.Refuses (c :: t) := by
  obtain ⟨hdouble, hsingle, hparen, hbracket⟩ := h
  simp only [closedChoices, List.forall_mem_cons]
  exact ⟨refuses_stringPiece hdouble hsingle t, refuses_bracketed _ hparen _ _ t,
    refuses_bracketed _ hbracket _ _ t, List.forall_mem_nil _⟩

theorem refuses_closedPieces {c : Char} (h : IsFlat c) (t : List Char) :
    ∀ p ∈ closedPieces, p.Refuses (c :: t) :=
  refuses_closedChoices exprBody h t

/-- A bracket that closes. -/
def IsCloser (c : Char) : Prop :=
  c = ')' ∨ c = ']' ∨ c = '}'

theorem isCloser_of_closing? {opening closing : Char} (h : closing? opening = some closing) :
    IsCloser closing := by
  obtain ⟨-, rfl⟩ | ⟨-, rfl⟩ | ⟨-, rfl⟩ := closing?_eq_some h
  · exact .inl rfl
  · exact .inr (.inl rfl)
  · exact .inr (.inr rfl)

theorem IsCloser.isFlat {z : Char} (h : IsCloser z) : IsFlat z := by
  rcases h with rfl | rfl | rfl <;> simp [IsFlat]

theorem IsCloser.stops {z : Char} (h : IsCloser z) (t : List Char) : Stops isCode (z :: t) := by
  rcases h with rfl | rfl | rfl <;> rfl

/-! ## Piece by piece -/

/-- A matcher takes every piece that balanced texts are made of, if what it holds is not too
long. -/
structure TakesPieces (p : Matcher Unit) (braces : Bool) (n : Nat) : Prop where
  string : ∀ {quote : Char} {body : List Char}, (quote = '"' ∨ quote = '\'') →
    IsStringBody quote body → ∀ t, p.Takes (quote :: (body ++ [quote])) t fun _ => True
  group : ∀ {opening closing : Char} {inner : List Char}, closing? opening = some closing →
    (opening = '{' → braces = true) → Balanced true inner → inner.length ≤ n →
      ∀ t, p.Takes (opening :: (inner ++ [closing])) t fun _ => True
  code : ∀ {run t : List Char}, run ≠ [] → (∀ c ∈ run, isCode c) → Stops isCode t →
    p.Takes run t fun _ => True

theorem Stops.append {p : Char → Bool} (hs : Stops p s) (ht : Stops p t) : Stops p (s ++ t) := by
  cases s with
  | nil => exact ht
  | cons c s => exact hs

/-- A balanced text is taken piece by piece. -/
theorem takesAll_balanced {p : Matcher Unit} {n : Nat} (hp : TakesPieces p braces n)
    (hstop : Stops isCode t) (hend : t = [] ∨ p.Refuses t) {s : List Char} (h : Balanced braces s)
    (hn : s.length ≤ n + 1) : ∃ bs, TakesAll p (fun _ (_ : Unit) => True) s t bs := by
  -- Neighbouring characters of code are one piece, so the induction is on the length.
  induction hk : s.length using Nat.strongRecOn generalizing s with
  | ind k ih =>
  obtain ⟨run, rest, rfl, hrun, hstops, hrest⟩ := h.exists_code
  by_cases hne : run = []
  · subst hne
    rw [List.nil_append] at hn hk ⊢
    cases hrest with
    | nil => exact ⟨[], .nil hend⟩
    | code hc _ => exact absurd (isCode_iff.mpr hc) (by simpa [Stops] using hstops)
    | @string _ quote body s hquote hbody hmore =>
      have hlength : s.length < k := by simp at hk; omega
      obtain ⟨bs, hbs⟩ := ih _ hlength hmore (by omega) rfl
      have hall : TakesAll p (fun _ (_ : Unit) => True) (quote :: (body ++ [quote]) ++ s) t
        (() :: bs) := .cons (List.cons_ne_nil _ _) (hp.string hquote hbody (s ++ t)) hbs
      exact ⟨() :: bs, by simpa using hall⟩
    | @group _ opening closing inner s hpair hbraces hinner hmore =>
      have hlength : s.length < k ∧ inner.length + 1 < k := by simp at hk; omega
      obtain ⟨bs, hbs⟩ := ih _ hlength.1 hmore (by omega) rfl
      have hall : TakesAll p (fun _ (_ : Unit) => True) (opening :: (inner ++ [closing]) ++ s) t
        (() :: bs) := .cons (List.cons_ne_nil _ _)
          (hp.group hpair hbraces hinner (by omega) (s ++ t)) hbs
      exact ⟨() :: bs, by simpa using hall⟩
  · have hpos := List.length_pos_iff.mpr hne
    have hlength : rest.length < k := by simp at hk; omega
    obtain ⟨bs, hbs⟩ := ih _ hlength hrest (by omega) rfl
    exact ⟨() :: bs, .cons hne (hp.code hne hrun (hstops.append hstop)) hbs⟩

/-! ## Between brackets -/

/-- The matcher takes a balanced text that is not too long, up to the bracket that closes it. -/
def TakesInside (inner : Matcher Unit) (n : Nat) : Prop :=
  ∀ {s : List Char}, Balanced true s → s.length ≤ n → ∀ {z : Char}, IsCloser z → ∀ t,
    inner.Takes s (z :: t) fun _ => True

variable {inner : Matcher Unit} {more : List (Matcher Unit)} {n : Nat}

theorem takes_group (h : TakesInside inner n) (rule : Rule) {opening closing : Char}
    (hpair : closing? opening = some closing) (hs : Balanced true s) (hn : s.length ≤ n)
    (t : List Char) :
    (bracketed rule opening closing inner).Takes (opening :: (s ++ [closing])) t fun _ => True :=
  takes_bracketed rule opening (h hs hn (isCloser_of_closing? hpair) t)

/-- Strings, parentheses and brackets are tried first; what comes then has to take code, and groups
in braces if they are allowed. -/
theorem takesPieces_closed (h : TakesInside inner n)
    (hcode : ∀ {run t : List Char}, run ≠ [] → (∀ c ∈ run, isCode c) → Stops isCode t →
      (firstOf more).Takes run t fun _ => True)
    (hgroup : braces = true → ∀ {s : List Char}, Balanced true s → s.length ≤ n → ∀ t,
      (firstOf more).Takes ('{' :: (s ++ ['}'])) t fun _ => True) :
    TakesPieces (firstOf (closedChoices inner ++ more)) braces n where
  string hquote hbody t := Takes.firstOf (takes_stringPiece hquote hbody t)
  group {opening closing content} hpair hbraces hcontent hn t := by
    have htake (rule : Rule) := takes_group h rule hpair hcontent hn t
    -- parentheses and brackets are among the choices, braces are left to what comes behind them
    obtain ⟨rfl, rfl⟩ | ⟨rfl, rfl⟩ | ⟨rfl, rfl⟩ := closing?_eq_some hpair
    · exact Refuses.firstOf (refuses_stringPiece (by decide) (by decide) _)
        (Takes.firstOf (htake _))
    · exact Refuses.firstOf (refuses_stringPiece (by decide) (by decide) _)
        (Refuses.firstOf (refuses_bracketed _ (by decide) _ _ _) (Takes.firstOf (htake _)))
    · exact Refuses.firstOf_append (refuses_closedChoices inner (by simp [IsFlat]) _)
        (hgroup (hbraces rfl) hcontent hn t)
  code {run t} hne hrun ht := by
    refine Refuses.firstOf_append ?_ (hcode hne hrun ht)
    obtain ⟨c, rest, rfl⟩ := List.exists_cons_of_ne_nil hne
    exact refuses_closedChoices inner (isFlat_code (hrun c (List.mem_cons_self ..))).1 _

theorem takes_code {rule : Rule} (hne : s ≠ []) (hs : ∀ c ∈ s, isCode c) (ht : Stops isCode t) :
    (firstOf [do let _ ← token rule code]).Takes s t fun _ => True :=
  Takes.firstOf ((Takes.token (run1_append hne hs ht)).map fun _ _ => trivial)

theorem piece_eq (inner : Matcher Unit) : balanced.piece inner =
    firstOf (closedChoices inner ++ [bracketed .exprBraces '{' '}' inner,
      do let _ ← token .exprCode code]) :=
  rfl

theorem takesPieces_piece (h : TakesInside inner n) :
    TakesPieces (balanced.piece inner) true n := by
  rw [piece_eq]
  refine takesPieces_closed h (fun {run t} hne hrun ht => ?_) fun _ {s} hs hn t => ?_
  · obtain ⟨c, rest, rfl⟩ := List.exists_cons_of_ne_nil hne
    have hc := (isFlat_code (hrun c (List.mem_cons_self ..))).2
    exact Refuses.firstOf (refuses_bracketed _ hc _ _ _) (takes_code hne hrun ht)
  · exact Takes.firstOf (takes_group h _ (by rfl) hs hn t)

theorem refuses_piece (inner : Matcher Unit) {z : Char} (hz : IsCloser z) (t : List Char) :
    (balanced.piece inner).Refuses (z :: t) := by
  have hbrace : '{' ≠ z := by rcases hz with rfl | rfl | rfl <;> decide
  rw [piece_eq]
  refine Refuses.all (List.forall_mem_append.mpr ⟨refuses_closedChoices inner hz.isFlat t, ?_⟩)
  simp only [List.forall_mem_cons]
  exact ⟨refuses_bracketed _ hbrace _ _ t, (Refuses.token (run1_none (hz.stops t))).bind,
    List.forall_mem_nil _⟩

theorem balanced_succ (n : Nat) :
    balanced (n + 1) = many (balanced.piece (balanced n)) >>= fun _ => Pure.pure () :=
  rfl

theorem takesInside_balanced (n : Nat) : TakesInside (balanced n) n := by
  induction n with
  | zero =>
    intro s _ hn z _ t
    obtain rfl := List.length_eq_zero_iff.mp (Nat.le_zero.mp hn)
    exact Takes.pure trivial
  | succ n ih =>
    intro s h hn z hz t
    obtain ⟨bs, hbs⟩ := takesAll_balanced (takesPieces_piece ih) (hz.stops t)
      (.inr (refuses_piece _ hz t)) h hn
    rw [balanced_succ]
    exact Takes.map hbs.many fun _ _ => trivial

/-- **Between brackets a balanced text is taken as a whole.** -/
theorem takes_exprBody (h : Balanced true s) {z : Char} (hz : IsCloser z) (t : List Char) :
    exprBody.Takes s (z :: t) fun _ => True := by
  intro o
  have hn : s.length ≤ (s ++ z :: t).length := by simp
  exact takesInside_balanced _ h hn hz t o

/-! ## In front of a block -/

/-- **In front of a brace a balanced text is taken as a whole**, if it has no brace outside of
brackets and strings. -/
theorem takes_condition_balanced (h : Balanced false s) (hne : s ≠ []) (t : List Char) :
    condition.Takes s ('{' :: t) fun l => l.chars = s := by
  have hinside : TakesInside exprBody s.length := fun hs _ _ hz t => takes_exprBody hs hz t
  have hpieces : TakesPieces (firstOf (closedPieces ++ [do let _ ← token .conditionCode code]))
      false s.length :=
    takesPieces_closed hinside takes_code fun hbraces => absurd hbraces Bool.false_ne_true
  have hend : (firstOf (closedPieces ++ [do let _ ← token .conditionCode code])).Refuses
      ('{' :: t) := by
    refine Refuses.all (List.forall_mem_append.mpr ⟨refuses_closedPieces (by simp [IsFlat]) t, ?_⟩)
    exact List.forall_mem_singleton.mpr (Refuses.token (run1_none (by rfl))).bind
  have hstop : Stops isCode ('{' :: t) := by rfl
  obtain ⟨bs, hbs⟩ := takesAll_balanced hpieces hstop (.inr hend) h (Nat.le_succ _)
  cases bs with
  | nil =>
    cases hbs
    exact absurd rfl hne
  | cons b bs => exact hbs.some1.lexeme.named _

end Stencil.Source
