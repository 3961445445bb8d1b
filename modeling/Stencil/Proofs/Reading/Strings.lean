import Stencil.Proofs.Reading.Program
import Stencil.Term.Constant

/-!
# Which tokens are a string literal

A term is a string literal where its tokens are strings one after the other, in any number of
parentheses, and nowhere else (`isString_program`). Every level of the grammar hands on what the
level below it gives if it has read no operator, and makes another kind of term if it has
(`SpellsStrings`), so what is left in the end is an atom. The other way round, an atom goes up
through all levels, and in front of a parenthesis it is read as in front of the end.
-/

namespace Stencil.Term

open Reader

/-- Whether a token is a string. -/
def Token.isString : Token → Bool
  | .str _ => true
  | _ => false

/-- The tokens of a string literal: strings one after the other, or a string literal in
parentheses. -/
inductive Quotation : List Token → Prop
  | strings {ts : List Token} (hne : ts ≠ []) (h : ∀ t ∈ ts, t.isString = true) : Quotation ts
  | paren {ts : List Token} (h : Quotation ts) :
    Quotation (.symbol .openParen :: (ts ++ [.symbol .closeParen]))

/-- Where the reader gives a string literal, it has read the tokens of one. -/
def SpellsStrings (r : Reader Term) : Prop :=
  ∀ ⦃ts t us⦄, r ts = some (t, us) → t.isString = true → ∃ p, Quotation p ∧ ts = p ++ us

variable {α : Type} {expr operand part : Reader Term} {t first : Term} {ts us : List Token}

/-! ## Single steps -/

/-- A choice by the next token: it was there and has been read, or the other way is taken. -/
theorem Tests.of_choice {b : Reader Bool} {u : Token} (hb : Tests b u) {yes no : Reader α} {x : α}
    (h : (do if ← b then yes else no : Reader α) ts = some (x, us)) :
    (∃ rest, ts = u :: rest ∧ yes rest = some (x, us)) ∨ no ts = some (x, us) := by
  cases ts with
  | nil =>
    rw [Reads.bind_eq, hb.nil] at h
    exact .inr h
  | cons v ts =>
    by_cases hv : v = u
    · subst hv
      rw [hb.yes_eq] at h
      exact .inl ⟨ts, rfl, h⟩
    · rw [hb.no_eq hv] at h
      exact .inr h

/-- The tokens left are counted and not read. -/
theorem of_left {f : Nat → Reader α} {x : α} (h : (left >>= f) ts = some (x, us)) :
    f ts.length ts = some (x, us) :=
  h

theorem expect_eq {s : Symbol} {x : Unit} (h : expect s ts = some (x, us)) :
    ts = .symbol s :: us := by
  rcases (tests_accept s).of_choice h with ⟨rest, hts, h⟩ | h
  · cases h
    exact hts
  · cases h

theorem moreStrings_eq {n : Nat} {more : List Char} (h : moreStrings n ts = some (more, us)) :
    ∃ p, (∀ t ∈ p, t.isString = true) ∧ ts = p ++ us := by
  have nothing {ts : List Token} (h : ts = us) : ∃ p, (∀ t ∈ p, t.isString = true) ∧ ts = p ++ us :=
    ⟨[], List.forall_mem_nil _, h⟩
  induction n generalizing ts more with
  | zero =>
    cases h
    exact nothing rfl
  | succ n ih =>
    cases ts with
    | nil =>
      cases h
      exact nothing rfl
    | cons u ts =>
      cases u with
      | str s =>
        have h : (do return s ++ (← moreStrings n) : Reader (List Char)) ts = some (more, us) := h
        obtain ⟨rest, vs, hrest, hout⟩ := Reads.of_bind h
        cases hout
        obtain ⟨p, hp, rfl⟩ := ih hrest
        exact ⟨.str s :: p, List.forall_mem_cons.mpr ⟨rfl, hp⟩, rfl⟩
      | _ =>
        cases h
        exact nothing rfl

/-! ## Levels of the grammar -/

/-- What stands in brackets: nothing, a comprehension, several items, or one and then the closing
bracket. -/
theorem display_cases {close : Symbol} {nothing : α} {single : Term → α} {several : List Term → α}
    {comprehension : Term → List Clause → α} {x : α}
    (h : display close nothing single several comprehension expr operand ts = some (x, us)) :
    x = nothing ∨ (∃ item clauses, x = comprehension item clauses) ∨ (∃ items, x = several items) ∨
      ∃ item, x = single item ∧ expr ts = some (item, .symbol close :: us) := by
  rcases (tests_accept close).of_choice h with ⟨rest, -, h⟩ | h
  · cases h
    exact .inl rfl
  obtain ⟨item, vs, hitem, h⟩ := Reads.of_bind h
  rcases (tests_acceptWord .forWord).of_choice h with ⟨rest, -, h⟩ | h
  · replace h := of_left h
    obtain ⟨cs, _, -, h⟩ := Reads.of_bind h
    obtain ⟨_, _, -, h⟩ := Reads.of_bind h
    cases h
    exact .inr (.inl ⟨item, cs, rfl⟩)
  rcases (tests_accept .comma).of_choice h with ⟨rest, -, h⟩ | h
  · replace h := of_left h
    obtain ⟨items, _, -, h⟩ := Reads.of_bind h
    cases h
    exact .inr (.inr (.inl ⟨_, rfl⟩))
  · obtain ⟨_, _, hclose, h⟩ := Reads.of_bind h
    cases h
    rw [expect_eq hclose] at hitem
    exact .inr (.inr (.inr ⟨item, rfl, hitem⟩))

theorem spells_parenthesized (hexpr : SpellsStrings expr)
    (h : parenthesized expr operand ts = some (t, us)) (ht : t.isString = true) :
    ∃ p, Quotation p ∧ ts = p ++ .symbol .closeParen :: us := by
  rcases display_cases h with rfl | ⟨_, _, rfl⟩ | ⟨_, rfl⟩ | ⟨item, rfl, hitem⟩
  · cases ht
  · cases ht
  · cases ht
  · exact hexpr hitem ht

theorem not_string_bracketed (h : bracketed expr operand ts = some (t, us)) :
    t.isString = false := by
  rcases display_cases h with rfl | ⟨_, _, rfl⟩ | ⟨_, rfl⟩ | ⟨_, rfl, -⟩ <;> rfl

theorem spells_atom (hexpr : SpellsStrings expr) : SpellsStrings (atom expr operand) := by
  intro ts t us h ht
  cases ts with
  | nil => cases h
  | cons u ts =>
    cases u with
    | str s =>
      have h : (do return .lit (.str (String.ofList (s ++ (← moreStrings (← left))))) :
        Reader Term) ts = some (t, us) := h
      replace h := of_left h
      obtain ⟨more, vs, hmore, h⟩ := Reads.of_bind h
      cases h
      obtain ⟨p, hp, rfl⟩ := moreStrings_eq hmore
      exact ⟨.str s :: p, .strings (List.cons_ne_nil _ _) (List.forall_mem_cons.mpr ⟨rfl, hp⟩), rfl⟩
    | symbol s =>
      -- only a parenthesis can hold a string and still be one
      cases s with
      | openParen =>
        have h : parenthesized expr operand ts = some (t, us) := h
        obtain ⟨p, hp, rfl⟩ := spells_parenthesized hexpr h ht
        exact ⟨_, .paren hp, by simp⟩
      | openBracket =>
        have h : bracketed expr operand ts = some (t, us) := h
        rw [not_string_bracketed h] at ht
        cases ht
      | openBrace =>
        have h : (do return Term.dict (← itemsUpTo .closeBrace (entry expr) (← left)).1 :
          Reader Term) ts = some (t, us) := h
        replace h := of_left h
        obtain ⟨entries, vs, -, h⟩ := Reads.of_bind h
        cases h
        cases ht
      | _ => cases h
    | keyword k => cases k <;> cases h <;> cases ht
    | lineEnd => cases h
    | _ =>
      cases h
      cases ht

theorem not_string_subscripts {subject : Term}
    (h : subscripts expr subject ts = some (t, us)) : t.isString = false := by
  obtain ⟨low, vs, -, h⟩ := Reads.of_bind h
  rcases (tests_accept .comma).of_choice h with ⟨rest, -, h⟩ | h
  · replace h := of_left h
    obtain ⟨others, _, -, h⟩ := Reads.of_bind h
    cases h
    unfold Subscript.allApplied
    split <;> rfl
  · obtain ⟨_, _, -, h⟩ := Reads.of_bind h
    cases h
    cases low <;> rfl

/-- What stands behind an atom makes another kind of term. -/
theorem trailers_eq {n : Nat} {subject : Term}
    (h : trailers expr operand n subject ts = some (t, us)) (ht : t.isString = true) :
    subject = t ∧ ts = us := by
  induction n generalizing subject ts with
  | zero =>
    cases h
    exact ⟨rfl, rfl⟩
  | succ n ih =>
    rcases (tests_accept .dot).of_choice h with ⟨rest, -, h⟩ | h
    · obtain ⟨id, _, -, h⟩ := Reads.of_bind h
      rw [← (ih h).1] at ht
      cases ht
    rcases (tests_accept .openParen).of_choice h with ⟨rest, -, h⟩ | h
    · obtain ⟨args, _, -, h⟩ := Reads.of_bind h
      rw [← (ih h).1] at ht
      cases ht
    rcases (tests_accept .openBracket).of_choice h with ⟨rest, -, h⟩ | h
    · obtain ⟨next, _, hnext, h⟩ := Reads.of_bind h
      rw [← (ih h).1, not_string_subscripts hnext] at ht
      cases ht
    · cases h
      exact ⟨rfl, rfl⟩

theorem spells_primary (hexpr : SpellsStrings expr) : SpellsStrings (primary expr operand) := by
  intro ts t us h ht
  obtain ⟨first, vs, hfirst, h⟩ := Reads.of_bind h
  replace h := of_left h
  obtain ⟨rfl, rfl⟩ := trailers_eq h ht
  exact spells_atom hexpr hfirst ht

theorem spells_signed (hexpr : SpellsStrings expr) (n : Nat) :
    SpellsStrings (signed expr operand n) := by
  intro ts t us h ht
  cases n with
  | zero => cases h
  | succ n =>
    rcases (tests_accept .minus).of_choice h with ⟨rest, -, h⟩ | h
    · obtain ⟨_, _, -, h⟩ := Reads.of_bind h
      cases h
      cases ht
    rcases (tests_accept .plus).of_choice h with ⟨rest, -, h⟩ | h
    · obtain ⟨_, _, -, h⟩ := Reads.of_bind h
      cases h
      cases ht
    · exact spells_primary hexpr h ht

theorem chain_eq {op? : Token → Option BinaryOp} {n : Nat}
    (h : chain part op? n first ts = some (t, us)) (ht : t.isString = true) :
    first = t ∧ ts = us := by
  induction n generalizing first ts with
  | zero =>
    cases h
    exact ⟨rfl, rfl⟩
  | succ n ih =>
    rw [chain, Reads.bind_eq, Reads.peek_eq] at h
    dsimp only [Option.bind_some] at h
    cases hop : ts.head?.bind op? with
    | none =>
      rw [hop] at h
      cases h
      exact ⟨rfl, rfl⟩
    | some op =>
      rw [hop] at h
      obtain ⟨_, _, -, h⟩ := Reads.of_bind h
      obtain ⟨second, _, -, h⟩ := Reads.of_bind h
      rw [← (ih h).1] at ht
      cases ht

theorem spells_product (hexpr : SpellsStrings expr) : SpellsStrings (product expr operand) := by
  intro ts t us h ht
  replace h := of_left h
  obtain ⟨first, vs, hfirst, h⟩ := Reads.of_bind h
  replace h := of_left h
  obtain ⟨rfl, rfl⟩ := chain_eq h ht
  exact spells_signed hexpr _ hfirst ht

theorem spells_sum (hexpr : SpellsStrings expr) : SpellsStrings (sum expr operand) := by
  intro ts t us h ht
  obtain ⟨first, vs, hfirst, h⟩ := Reads.of_bind h
  replace h := of_left h
  obtain ⟨rfl, rfl⟩ := chain_eq h ht
  exact spells_product hexpr hfirst ht

theorem compareOp_none (h : compareOp? ts = some (none, us)) : ts = us := by
  unfold compareOp? at h
  rw [Reads.bind_eq, Reads.get_eq] at h
  dsimp only [Option.bind_some] at h
  split at h
  case h_11 =>
    cases h
    rfl
  all_goals
    cases h

theorem comparisons_nil {n : Nat} (h : comparisons part n ts = some ([], us)) : ts = us := by
  cases n with
  | zero =>
    cases h
    rfl
  | succ n =>
    obtain ⟨op, vs, hop, h⟩ := Reads.of_bind h
    cases op with
    | none =>
      cases h
      exact compareOp_none hop
    | some op =>
      obtain ⟨_, _, -, h⟩ := Reads.of_bind h
      obtain ⟨_, _, -, h⟩ := Reads.of_bind h
      cases h

theorem spells_comparison (hexpr : SpellsStrings expr) :
    SpellsStrings (comparison expr operand) := by
  intro ts t us h ht
  obtain ⟨first, vs, hfirst, h⟩ := Reads.of_bind h
  replace h := of_left h
  obtain ⟨rest, _, hrest, h⟩ := Reads.of_bind h
  cases rest with
  | nil =>
    cases h
    obtain rfl := comparisons_nil hrest
    exact spells_sum hexpr hfirst ht
  | cons =>
    cases h
    cases ht

theorem spells_negation (hexpr : SpellsStrings expr) (n : Nat) :
    SpellsStrings (negation expr operand n) := by
  intro ts t us h ht
  cases n with
  | zero => cases h
  | succ n =>
    rcases (tests_acceptWord .notWord).of_choice h with ⟨rest, -, h⟩ | h
    · obtain ⟨_, _, -, h⟩ := Reads.of_bind h
      cases h
      cases ht
    · exact spells_comparison hexpr h ht

theorem wordChain_eq {word : Keyword} {join : Term → Term → Term} {n : Nat}
    (hjoin : ∀ a b, (join a b).isString = false)
    (h : wordChain word join part n first ts = some (t, us)) (ht : t.isString = true) :
    first = t ∧ ts = us := by
  induction n generalizing first ts with
  | zero =>
    cases h
    exact ⟨rfl, rfl⟩
  | succ n ih =>
    rcases (tests_acceptWord word).of_choice h with ⟨rest, -, h⟩ | h
    · obtain ⟨second, _, -, h⟩ := Reads.of_bind h
      rw [← (ih h).1, hjoin] at ht
      cases ht
    · cases h
      exact ⟨rfl, rfl⟩

theorem spells_conjunction (hexpr : SpellsStrings expr) :
    SpellsStrings (conjunction expr operand) := by
  intro ts t us h ht
  replace h := of_left h
  obtain ⟨first, vs, hfirst, h⟩ := Reads.of_bind h
  obtain ⟨rfl, rfl⟩ := wordChain_eq (fun _ _ => rfl) h ht
  replace hfirst := of_left hfirst
  exact spells_negation hexpr _ hfirst ht

theorem spells_disjunctionWith (hexpr : SpellsStrings expr) :
    SpellsStrings (disjunctionWith expr operand) := by
  intro ts t us h ht
  replace h := of_left h
  obtain ⟨first, vs, hfirst, h⟩ := Reads.of_bind h
  obtain ⟨rfl, rfl⟩ := wordChain_eq (fun _ _ => rfl) h ht
  exact spells_conjunction hexpr hfirst ht

theorem spells_exprWith (hexpr : SpellsStrings expr) : SpellsStrings (exprWith expr operand) := by
  intro ts t us h ht
  obtain ⟨first, vs, hfirst, h⟩ := Reads.of_bind h
  rcases (tests_acceptWord .ifWord).of_choice h with ⟨rest, -, h⟩ | h
  · obtain ⟨_, _, -, h⟩ := Reads.of_bind h
    obtain ⟨_, _, -, h⟩ := Reads.of_bind h
    obtain ⟨_, _, -, h⟩ := Reads.of_bind h
    cases h
    cases ht
  · cases h
    exact spells_disjunctionWith hexpr hfirst ht

theorem spells_readers (n : Nat) : SpellsStrings (readers n).1 := by
  induction n with
  | zero =>
    intro ts t us h
    cases h
  | succ n ih => exact spells_exprWith ih

/-! ## String literals at every level -/

theorem Quotation.oneLine {q : List Token} (h : Quotation q) : OneLine q := by
  induction h with
  | strings _ h =>
    rintro t ht rfl
    cases h _ ht
  | paren h ih =>
    rintro t ht rfl
    rcases List.mem_cons.mp ht with ht | ht
    · cases ht
    rcases List.mem_append.mp ht with ht | ht
    · exact ih _ ht rfl
    · cases List.mem_singleton.mp ht

/-- A string literal begins with a string or an open parenthesis. -/
theorem Quotation.exists_cons {q : List Token} (h : Quotation q) :
    ∃ u rest, q = u :: rest ∧ (u.isString = true ∨ u = .symbol .openParen) := by
  cases h with
  | @strings ts hne h =>
    obtain ⟨u, rest, rfl⟩ := List.exists_cons_of_ne_nil hne
    exact ⟨u, rest, rfl, .inl (h u (List.mem_cons_self ..))⟩
  | paren => exact ⟨_, _, rfl, .inr rfl⟩

theorem Quotation.exists_string {q : List Token} (h : Quotation q) :
    ∃ t ∈ q, t.isString = true := by
  induction h with
  | @strings ts hne h =>
    obtain ⟨t, rest, rfl⟩ := List.exists_cons_of_ne_nil hne
    exact ⟨t, List.mem_cons_self .., h t (List.mem_cons_self ..)⟩
  | paren h ih =>
    obtain ⟨t, ht, hstring⟩ := ih
    exact ⟨t, List.mem_cons_of_mem _ (List.mem_append_left _ ht), hstring⟩

theorem moreStrings_all {F : List Token} (hF : Ended F) {p : List Token}
    (hp : ∀ t ∈ p, t.isString = true) {n : Nat} (hn : p.length ≤ n) :
    ∃ more, moreStrings n (p ++ F) = some (more, F) := by
  induction p generalizing n with
  | nil => cases n <;> cases hF <;> exact ⟨_, rfl⟩
  | cons u p ih =>
    obtain ⟨hu, hp⟩ := List.forall_mem_cons.mp hp
    cases n with
    | zero => cases hn
    | succ n =>
      obtain ⟨more, hmore⟩ := ih hp (Nat.le_of_succ_le_succ hn)
      cases u with
      | str s =>
        refine ⟨s ++ more, ?_⟩
        show (do return s ++ (← moreStrings n) : Reader (List Char)) (p ++ F) = _
        rw [Reads.bind_eq, hmore]
        rfl
      | _ => cases hu

/-- Strings with nothing behind them are an atom. -/
theorem atom_strings {F : List Token} (hF : Ended F) {u : Token} {p : List Token}
    (h : ∀ t ∈ u :: p, t.isString = true) :
    ∃ t, t.isString = true ∧ atom expr operand (u :: p ++ F) = some (t, F) := by
  obtain ⟨hu, hp⟩ := List.forall_mem_cons.mp h
  cases u with
  | str s =>
    obtain ⟨more, hmore⟩ := moreStrings_all hF hp
      (show p.length ≤ (p ++ F).length by simp)
    refine ⟨.lit (.str (String.ofList (s ++ more))), rfl, ?_⟩
    show (do return .lit (.str (String.ofList (s ++ (← moreStrings (p ++ F).length)))) :
      Reader Term) (p ++ F) = _
    rw [Reads.bind_eq, hmore]
    rfl
  | _ => cases hu

/-- **A string literal with nothing behind it is read as one**, if the reader goes deep enough. -/
theorem readers_quotation {q : List Token} (h : Quotation q) {F : List Token} (hF : Ended F)
    {n : Nat} (hn : q.length < n) :
    ∃ t, t.isString = true ∧ (readers n).1 (q ++ F) = some (t, F) := by
  induction h generalizing F n with
  | @strings ts hne h =>
    obtain ⟨u, p, rfl⟩ := List.exists_cons_of_ne_nil hne
    obtain ⟨n, rfl⟩ : ∃ m, n = m + 1 := ⟨n - 1, by omega⟩
    obtain ⟨t, ht, hatom⟩ : ∃ t, t.isString = true ∧
        atom (readers n).1 (readers n).2 (u :: p ++ F) = some (t, F) := atom_strings hF h
    have hu : BeginsAtom u := by
      have hstring := h u (List.mem_cons_self ..)
      constructor <;> rintro rfl <;> cases hstring
    exact ⟨t, ht, exprWith_atom hF hu hatom⟩
  | @paren ts h ih =>
    simp only [List.length_cons, List.length_append, List.length_nil] at hn
    obtain ⟨n, rfl⟩ : ∃ m, n = m + 1 := ⟨n - 1, by omega⟩
    obtain ⟨t, ht, hend⟩ := ih hF (show ts.length < n by omega)
    refine ⟨t, ht, ?_⟩
    -- what is read in front of the end is read in front of the parenthesis
    have hinner := (Reads.readers (G := F) (n := n) hF (show ts.length < n by omega)).1
    obtain ⟨p, rest, hts, -, hrest, hclose⟩ := hinner ts h.oneLine Nat.le.refl hend
    obtain rfl : rest = [] := List.self_eq_append_left.mp hrest
    obtain ⟨u, more, rfl, hu⟩ := h.exists_cons
    have hne : u ≠ .symbol .closeParen := by
      rintro rfl
      rcases hu with hu | hu <;> cases hu
    rw [List.cons_append, List.append_assoc, List.singleton_append]
    exact exprWith_paren hF (parenthesized_single hne hclose)

/-- **A program is a string literal if and only if its tokens are those of one**, line ends behind
them aside. -/
theorem isString_program (h : program ts = some (t, us)) :
    t.isString = true ↔ Quotation (solid ts) := by
  obtain ⟨p, E, rfl, hp, hE, -⟩ := program_line h
  rw [solid_line hp hE]
  constructor
  · intro ht
    replace h := of_left h
    obtain ⟨first, vs, hfirst, h⟩ := Reads.of_bind h
    rcases (tests_accept .comma).of_choice h with ⟨rest, -, h⟩ | h
    · replace h := of_left h
      obtain ⟨items, _, -, h⟩ := Reads.of_bind h
      obtain ⟨_, _, -, h⟩ := Reads.of_bind h
      cases h
      cases ht
    obtain ⟨_, _, hfinish, h⟩ := Reads.of_bind h
    cases h
    obtain ⟨q, hq, hts⟩ := spells_readers _ hfirst ht
    have hvs := allEnds_of_dropWhile (finish_eq hfinish).2
    rw [← solid_line hp hE, hts, solid_line hq.oneLine hvs]
    exact hq
  · intro hq
    have hlength : p.length < (p ++ E).length + 1 := by
      rw [List.length_append]
      omega
    obtain ⟨s, hs, hread⟩ := readers_quotation hq hE.ended hlength
    rw [program_single hE hread] at h
    cases h
    exact hs

end Stencil.Term
