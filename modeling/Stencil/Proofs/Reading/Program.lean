import Stencil.Proofs.Reading.Enclosed

/-!
# Programs in parentheses

A program is a line of tokens and line ends behind it. Read between parentheses, the line gives
what the program gives: commas make a tuple in both places, and nothing can follow.
-/

namespace Stencil.Term

open Reader

/-- Tokens that are all line ends. -/
def AllEnds (ts : List Token) : Prop :=
  ∀ t ∈ ts, t = .lineEnd

theorem AllEnds.ended {ts : List Token} (h : AllEnds ts) : Ended ts := by
  cases ts with
  | nil => exact .nil
  | cons t ts =>
    rw [h t (by simp)]
    exact .lineEnd ts

theorem allEnds_of_dropWhile {ts : List Token} (h : ts.dropWhile (· matches .lineEnd) = []) :
    AllEnds ts := by
  induction ts with
  | nil => exact nofun
  | cons t ts ih =>
    cases t with
    | lineEnd =>
      rintro u (_ | ⟨_, hu⟩)
      · rfl
      · exact ih h u hu
    | _ => cases h

theorem AllEnds.dropWhile {ts : List Token} (h : AllEnds ts) :
    ts.dropWhile (· matches .lineEnd) = [] := by
  induction ts with
  | nil => rfl
  | cons t ts ih =>
    rw [h t (by simp)]
    exact ih fun u hu => h u (by simp [hu])

theorem AllEnds.of_append {p q : List Token} (hp : OneLine p) (h : AllEnds (p ++ q)) :
    p = [] ∧ AllEnds q := by
  refine ⟨List.eq_nil_iff_forall_not_mem.mpr fun t ht => ?_, fun t ht => h t (by simp [ht])⟩
  exact hp t ht (h t (by simp [ht]))

/-- Every list of tokens is a line with an end behind it. -/
theorem exists_line (ts : List Token) : ∃ q F, ts = q ++ F ∧ OneLine q ∧ Ended F := by
  induction ts with
  | nil => exact ⟨[], [], rfl, nofun, .nil⟩
  | cons t ts ih =>
    obtain ⟨q, F, rfl, hq, hF⟩ := ih
    by_cases ht : t = .lineEnd
    · subst ht
      exact ⟨[], _, rfl, nofun, .lineEnd _⟩
    · refine ⟨t :: q, F, rfl, ?_, hF⟩
      rintro u (_ | ⟨_, hu⟩)
      · exact ht
      · exact hq u hu

/-! ## Expressions in parentheses -/

variable {F G : List Token}

/-- No expression begins with a closing parenthesis. -/
theorem readers_close (n : Nat) (rest : List Token) :
    (readers n).1 (.symbol .closeParen :: rest) = none := by
  cases n with
  | zero => rfl
  | succ n => rfl

theorem trailers_end (expr operand : Reader Term) (hF : Ended F) (n : Nat) (subject : Term) :
    trailers expr operand n subject F = some (subject, F) := by
  cases n <;> cases hF <;> rfl

theorem chain_end (operand : Reader Term) {op? : Token → Option BinaryOp}
    (hop : op? .lineEnd = none) (hF : Ended F) (n : Nat) (first : Term) :
    chain operand op? n first F = some (first, F) := by
  cases n with
  | zero => rfl
  | succ n =>
    cases hF with
    | nil => rfl
    | lineEnd rest =>
      rw [chain, Reads.bind_eq, Reads.peek_eq]
      dsimp only [List.head?, Option.bind]
      rw [hop]
      rfl

theorem comparisons_end (operand : Reader Term) (hF : Ended F) (n : Nat) :
    comparisons operand n F = some ([], F) := by
  cases n <;> cases hF <;> rfl

theorem wordChain_end (word : Keyword) (join : Term → Term → Term) (operand : Reader Term)
    (hF : Ended F) (n : Nat) (first : Term) :
    wordChain word join operand n first F = some (first, F) := by
  cases n <;> cases hF <;> rfl

variable {expr operand : Reader Term} {t : Term} {u : Token} {q : List Token}

/-- A token that is no sign and no negation. -/
structure BeginsAtom (u : Token) : Prop where
  minus : u ≠ .symbol .minus
  plus : u ≠ .symbol .plus
  notWord : u ≠ .keyword .notWord

section

variable (hF : Ended F) (hu : BeginsAtom u) (h : atom expr operand (u :: q) = some (t, F))

include hF h

theorem primary_atom : primary expr operand (u :: q) = some (t, F) := by
  rw [primary, Reads.bind_eq, h]
  exact trailers_end expr operand hF _ t

include hu

theorem signed_atom (n : Nat) : signed expr operand (n + 1) (u :: q) = some (t, F) := by
  rw [signed, (tests_accept .minus).no_eq hu.minus, (tests_accept .plus).no_eq hu.plus]
  exact primary_atom hF h

theorem product_atom : product expr operand (u :: q) = some (t, F) := by
  show Option.bind (signed expr operand _ _) _ = _
  rw [signed_atom hF hu h]
  exact chain_end _ rfl hF _ t

theorem sum_atom : sum expr operand (u :: q) = some (t, F) := by
  rw [sum, Reads.bind_eq, product_atom hF hu h]
  exact chain_end _ rfl hF _ t

theorem comparison_atom : comparison expr operand (u :: q) = some (t, F) := by
  rw [comparison, Reads.bind_eq, sum_atom hF hu h]
  show Option.bind (comparisons _ _ F) _ = _
  rw [comparisons_end _ hF]
  rfl

theorem negation_atom (n : Nat) : negation expr operand (n + 1) (u :: q) = some (t, F) := by
  rw [negation, (tests_acceptWord .notWord).no_eq hu.notWord]
  exact comparison_atom hF hu h

theorem conjunction_atom : conjunction expr operand (u :: q) = some (t, F) := by
  show Option.bind (negation expr operand _ _) _ = _
  rw [negation_atom hF hu h]
  exact wordChain_end _ _ _ hF _ t

theorem disjunctionWith_atom : disjunctionWith expr operand (u :: q) = some (t, F) := by
  show Option.bind (conjunction expr operand _) _ = _
  rw [conjunction_atom hF hu h]
  exact wordChain_end _ _ _ hF _ t

/-- An atom with nothing behind it is an expression. -/
theorem exprWith_atom : exprWith expr operand (u :: q) = some (t, F) := by
  rw [exprWith, Reads.bind_eq, disjunctionWith_atom hF hu h]
  show (do if ← acceptWord .ifWord then _ else _ : Reader Term) F = _
  rw [(tests_acceptWord .ifWord).end_eq nofun hF]
  rfl

end

theorem beginsAtom_openParen : BeginsAtom (.symbol .openParen) :=
  ⟨nofun, nofun, nofun⟩

theorem exprWith_paren (hF : Ended F) (h : parenthesized expr operand q = some (t, F)) :
    exprWith expr operand (.symbol .openParen :: q) = some (t, F) :=
  exprWith_atom hF beginsAtom_openParen h

/-! ## Programs -/

/-- One expression in parentheses is what it is without. -/
theorem parenthesized_single {u : Token} {us G : List Token} (hu : u ≠ .symbol .closeParen)
    (h : expr (u :: us) = some (t, .symbol .closeParen :: G)) :
    parenthesized expr operand (u :: us) = some (t, G) := by
  rw [parenthesized, display, (tests_accept _).no_eq hu, Reads.bind_eq, h]
  rfl

/-- An expression and items behind a comma are a tuple. -/
theorem parenthesized_tuple {u : Token} {us ts G : List Token} {items : List Term} {comma : Bool}
    (hu : u ≠ .symbol .closeParen) (h : expr (u :: us) = some (t, .symbol .comma :: ts))
    (hitems : itemsUpTo .closeParen expr ts.length ts = some ((items, comma), G)) :
    parenthesized expr operand (u :: us) = some (.tuple (t :: items), G) := by
  rw [parenthesized, display, (tests_accept _).no_eq hu, Reads.bind_eq, h]
  show Option.bind (itemsUpTo .closeParen expr ts.length ts) _ = _
  rw [hitems]
  rfl

theorem programRest_next {t : Token} (ht : t ≠ .lineEnd) (expr : Reader Term) (n : Nat)
    (rest : List Token) :
    program.programRest expr (n + 1) (t :: rest) = (do
      let first ← expr
      if ← accept .comma then return first :: (← program.programRest expr n)
      return [first]) (t :: rest) := by
  cases t <;> first | rfl | contradiction

/-- Behind a line that is all read there are only line ends. -/
theorem allEnds_of_nothing {q us : List Token} (hq : OneLine q) (hus : us = q ++ F)
    (h : us.dropWhile (· matches .lineEnd) = []) : q = [] ∧ AllEnds F :=
  AllEnds.of_append hq (hus ▸ allEnds_of_dropWhile h)

/-- The items after a comma are those before a closing parenthesis, if nothing follows them. -/
theorem programRest_items {expr' : Reader Term} {q us : List Token} {xs : List Term} {n n' : Nat}
    (hF : Ended F) (hexpr : Reads F G 1 q.length expr expr')
    (hclose : ∀ rest, expr' (.symbol .closeParen :: rest) = none) (hq : OneLine q)
    (hn' : q.length < n') (h : program.programRest expr n (q ++ F) = some (xs, us))
    (hus : us.dropWhile (· matches .lineEnd) = []) :
    AllEnds F ∧ ∃ comma,
      itemsUpTo .closeParen expr' n' (q ++ .symbol .closeParen :: G) = some ((xs, comma), G) := by
  induction n generalizing q xs n' with
  | zero => cases h
  | succ n ih =>
    obtain ⟨n', rfl⟩ : ∃ m, n' = m + 1 := ⟨n' - 1, by omega⟩
    cases q with
    | nil =>
      have hxs : xs = [] ∧ us = F := by cases hF <;> cases h <;> exact ⟨rfl, rfl⟩
      obtain ⟨rfl, rfl⟩ := hxs
      exact ⟨allEnds_of_dropWhile hus, false, rfl⟩
    | cons t q =>
      rw [List.cons_append, programRest_next (hq t (by simp))] at h
      obtain ⟨first, vs, hfirst, h⟩ := Reads.of_bind h
      obtain ⟨p, rest, hp, hd, rfl, hfirst'⟩ := hexpr (t :: q) hq Nat.le.refl hfirst
      have ht : t ≠ .symbol .closeParen := by
        rintro rfl
        rw [List.cons_append, hclose] at hfirst'
        cases hfirst'
      have hlen : rest.length < (t :: q).length := by rw [hp, List.length_append]; omega
      have hrest : OneLine rest := OneLine.right (p := p) (hp ▸ hq)
      rw [List.cons_append, itemsUpTo, (tests_accept _).no_eq ht, Reads.bind_eq, ← List.cons_append,
        hfirst', Option.bind_some]
      cases rest with
      | nil =>
        rw [List.nil_append, (tests_accept .comma).end_eq nofun hF] at h
        cases h
        exact ⟨allEnds_of_dropWhile hus, false, rfl⟩
      | cons u rest =>
        -- without a comma the items end here, and then nothing may be left on the line
        by_cases hu : u = .symbol .comma
        · subst hu
          rw [List.cons_append, (tests_accept .comma).yes_eq] at h
          obtain ⟨others, _, hothers, hout⟩ := Reads.of_bind h
          cases hout
          rw [List.length_cons] at hlen
          have hn : rest.length < n' := by rw [List.length_cons] at hlen hn'; omega
          obtain ⟨hE, comma, hitems⟩ := ih (hexpr.within (by omega)) hrest.tail hn hothers
          refine ⟨hE, true, ?_⟩
          rw [List.cons_append, (tests_accept .comma).yes_eq, Reads.bind_eq, hitems]
          rfl
        · rw [List.cons_append, (tests_accept .comma).no_eq hu] at h
          cases h
          cases (allEnds_of_nothing hrest rfl hus).1

theorem finish_eq {ts us : List Token} (h : finish ts = some ((), us)) :
    us = ts ∧ ts.dropWhile (· matches .lineEnd) = [] := by
  rw [finish, Reads.bind_eq, Reads.get_eq] at h
  dsimp only [Option.bind] at h
  generalize ts.dropWhile _ = rest at h ⊢
  cases rest with
  | nil =>
    cases h
    exact ⟨rfl, rfl⟩
  | cons => cases h

theorem finish_end {ts : List Token} (h : AllEnds ts) : finish ts = some ((), ts) := by
  rw [finish, Reads.bind_eq, Reads.get_eq]
  dsimp only [Option.bind]
  generalize hts : List.dropWhile _ ts = rest
  cases rest with
  | nil => rfl
  | cons => cases hts.symm.trans h.dropWhile

/-- **What a program reads is what its line means in parentheses.** -/
theorem program_line {ts us : List Token} {t : Term} (h : program ts = some (t, us)) :
    ∃ p E, ts = p ++ E ∧ OneLine p ∧ AllEnds E ∧ ∀ n G, p.length < n →
      parenthesized (readers n).1 (readers n).2 (p ++ .symbol .closeParen :: G) = some (t, G) := by
  obtain ⟨q, F, rfl, hq, hF⟩ := exists_line ts
  rw [program] at h
  obtain ⟨_, _, hn, h⟩ := Reads.of_bind h
  cases hn
  obtain ⟨first, vs, hfirst, h⟩ := Reads.of_bind h
  have hreads (n : Nat) (G : List Token) (hn : q.length < n) :=
    (Reads.readers (G := G) hF hn).1 q hq Nat.le.refl hfirst
  obtain ⟨p, rest, hp, hd, rfl, -⟩ := hreads (q.length + 1) [] (Nat.lt_succ_self _)
  have hrest : OneLine rest := OneLine.right (p := p) (hp ▸ hq)
  -- in parentheses the first expression is followed by the same tokens
  have hinside (n : Nat) (G : List Token) (hn : q.length < n) :
      (readers n).1 (q ++ .symbol .closeParen :: G) =
        some (first, rest ++ .symbol .closeParen :: G) := by
    obtain ⟨p', rest', -, -, hsame, h'⟩ := hreads n G hn
    rwa [← List.append_cancel_right hsame] at h'
  obtain ⟨u, w, rfl⟩ : ∃ u w, q = u :: w :=
    List.exists_cons_of_length_pos (by rw [hp, List.length_append]; omega)
  have hu : u ≠ .symbol .closeParen := by
    rintro rfl
    have hnone := hinside _ [] (Nat.lt_succ_self _)
    rw [List.cons_append, readers_close] at hnone
    cases hnone
  cases rest with
  | nil =>
    rw [List.nil_append, (tests_accept .comma).end_eq nofun hF] at h
    obtain ⟨_, _, hfin, hout⟩ := Reads.of_bind h
    cases hout
    exact ⟨u :: w, F, rfl, hq, allEnds_of_dropWhile (finish_eq hfin).2,
      fun n G hn => parenthesized_single hu (hinside n G hn)⟩
  | cons v rest =>
    by_cases hv : v = .symbol .comma
    · subst hv
      rw [List.cons_append, List.cons_append, (tests_accept .comma).yes_eq] at h
      obtain ⟨_, _, hn, h⟩ := Reads.of_bind h
      cases hn
      obtain ⟨others, _, hothers, h⟩ := Reads.of_bind h
      obtain ⟨_, _, hfin, hout⟩ := Reads.of_bind h
      cases hout
      have hlen : rest.length < (u :: w).length := by
        rw [hp, List.length_append, List.length_cons]; omega
      have hexpr (G : List Token) (n : Nat) (hn : (u :: w).length < n) :=
        (Reads.readers (F := F) (G := G) (n := (u :: w ++ F).length + 1) hF
          (show rest.length < n by omega)).1
      have hitems (n : Nat) (G : List Token) (hn : (u :: w).length < n) (m : Nat)
          (hm : rest.length < m) :=
        programRest_items hF (hexpr G n hn) (readers_close n) hrest.tail hm hothers
          (finish_eq hfin).2
      refine ⟨u :: w, F, rfl, hq, (hitems _ [] (Nat.lt_succ_self _) _ (Nat.lt_succ_self _)).1, ?_⟩
      intro n G hn
      obtain ⟨-, comma, hrest'⟩ := hitems n G hn (rest ++ .symbol .closeParen :: G).length (by simp)
      exact parenthesized_tuple hu (hinside n G hn) hrest'
    · rw [List.cons_append, List.cons_append, (tests_accept .comma).no_eq hv] at h
      obtain ⟨_, _, hfin, hout⟩ := Reads.of_bind h
      cases (allEnds_of_nothing hrest rfl (finish_eq hfin).2).1

/-! ## Lines in parentheses -/

/-- The tokens that are no line ends. -/
def solid (ts : List Token) : List Token :=
  ts.filter fun t => !(t matches .lineEnd)

theorem solid_append (ts us : List Token) : solid (ts ++ us) = solid ts ++ solid us :=
  List.filter_append ts us

theorem solid_line {p E : List Token} (hp : OneLine p) (hE : AllEnds E) : solid (p ++ E) = p := by
  have hp' : solid p = p := by
    rw [solid, List.filter_eq_self]
    intro t ht
    cases t <;> first | rfl | exact absurd rfl (hp _ ht)
  have hE' : solid E = [] := by
    rw [solid, List.filter_eq_nil_iff]
    intro t ht
    rw [hE t ht]
    exact Bool.false_ne_true
  rw [solid_append, hp', hE', List.append_nil]

/-- An expression that is all there is, is the program. -/
theorem program_single {E ts : List Token} (hE : AllEnds E)
    (h : (readers (ts.length + 1)).1 ts = some (t, E)) : program ts = some (t, E) := by
  show Option.bind ((readers (ts.length + 1)).1 ts) _ = _
  rw [h]
  show (do if ← accept .comma then _ else _ : Reader Term) E = _
  rw [(tests_accept .comma).end_eq nofun hE.ended]
  show Option.bind (finish E) _ = _
  rw [finish_end hE]
  rfl

theorem program_paren {q E : List Token} {t : Term} (hE : AllEnds E)
    (h : ∀ n, q.length < n → parenthesized (readers n).1 (readers n).2 q = some (t, E)) :
    program (.symbol .openParen :: q) = some (t, E) :=
  program_single hE (exprWith_paren hE.ended (h (q.length + 1) (Nat.lt_succ_self _)))

/-- **A line means the same with parentheses around it**, wherever line ends stand. -/
theorem program_enclosed {ts ts' us us' : List Token} {t t' : Term}
    (h : program ts = some (t, us)) (h' : program ts' = some (t', us'))
    (hts : solid ts' = .symbol .openParen :: solid ts ++ [.symbol .closeParen]) : t = t' := by
  obtain ⟨p, E, rfl, hp, hE, hparen⟩ := program_line h
  obtain ⟨p', E', rfl, hp', hE', -⟩ := program_line h'
  rw [solid_line hp hE, solid_line hp' hE'] at hts
  subst hts
  rw [List.cons_append, List.cons_append, List.append_assoc, List.singleton_append,
    program_paren hE' fun n hn => hparen n E' (by rw [List.length_append] at hn; omega)] at h'
  cases h'
  rfl

end Stencil.Term
