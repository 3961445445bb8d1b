import Stencil.Proofs.Reading.Readers

/-!
# Terms before a closing parenthesis

Every reader of the grammar reads in front of a closing parenthesis what it reads in front of the
end. Readers of a level are compared given those for what is nested in it, which have fewer tokens
to read.
-/

namespace Stencil.Term

open Reader

variable {F G : List Token} {K : Nat}

namespace Reads

/-! ## Comprehensions -/

theorem targetWith {inner inner' : Symbol → Reader Target} (hF : Ended F)
    (hinner : ∀ close, ∀ J < K, Reads F G 0 J (inner close) (inner' close)) :
    Reads F G 1 K (targetWith inner) (targetWith inner') := by
  refine accept_some hF (hinner .closeParen) (accept nofun hF (hinner .closeBracket) ?_)
  exact map (identifier hF) _

theorem target (hF : Ended F) {n n' : Nat} (hn : K < n') :
    Reads F G 1 K (target n) (target n') := by
  induction n generalizing n' K with
  | zero => exact Reads.failure _
  | succ n ih =>
    obtain ⟨n', rfl⟩ : ∃ m, n' = m + 1 := ⟨n' - 1, by omega⟩
    refine targetWith hF fun close J hJ => ?_
    refine left fun m m' I hI _ hm => ?_
    refine bind (itemsUpTo hF (ih (by omega)) hm) fun x _ _ => ?_
    split
    split <;> exact Reads.pure _

theorem targetsUpToIn {item item' : Reader Target} (hF : Ended F)
    (hitem : Reads F G 1 K item item') {n n' : Nat} (hn : K < n') :
    Reads F G 1 K (targetsUpToIn item n) (targetsUpToIn item' n') := by
  induction n generalizing n' K with
  | zero => exact Reads.failure _
  | succ n ih =>
    obtain ⟨n', rfl⟩ : ∃ m, n' = m + 1 := ⟨n' - 1, by omega⟩
    refine bind hitem fun x J hJ => ?_
    refine accept nofun hF (fun I hI => ?_) (bind (expectWord hF) fun _ _ _ => ?_)
    · refine acceptWord hF (fun _ _ => Reads.pure _) ?_
      refine bind (ih (hitem.within (by omega)) (by omega)) fun _ _ _ => ?_
      exact (Reads.pure _).weaken (by omega)
    · exact (Reads.pure _).weaken (by omega)

theorem conditions {operand operand' : Reader Term} (hF : Ended F)
    (hoperand : Reads F G 1 K operand operand') {n n' : Nat} (hn : K ≤ n) (hn' : K < n') :
    Reads F G 0 K (conditions operand n) (conditions operand' n') := by
  induction n generalizing n' K with
  | zero =>
    obtain ⟨n', rfl⟩ : ∃ m, n' = m + 1 := ⟨n' - 1, by omega⟩
    exact nothing (by omega) rfl
  | succ n ih =>
    obtain ⟨n', rfl⟩ : ∃ m, n' = m + 1 := ⟨n' - 1, by omega⟩
    refine acceptWord hF (fun J hJ => ?_) (Reads.pure _)
    refine bind (hoperand.within (by omega)) fun x I hI => ?_
    exact map (ih (hoperand.within (by omega)) (by omega) (by omega)) _

theorem clauses {operand operand' : Reader Term} (hF : Ended F)
    (hoperand : Reads F G 1 K operand operand') {n n' : Nat} (hn' : K < n') :
    Reads F G 1 K (clauses operand n) (clauses operand' n') := by
  induction n generalizing n' K with
  | zero => exact Reads.failure _
  | succ n ih =>
    obtain ⟨n', rfl⟩ : ∃ m, n' = m + 1 := ⟨n' - 1, by omega⟩
    refine left fun m m' J hJ _ hm => left fun k k' I hI _ hk => ?_
    refine bind (targetsUpToIn hF (target hF (by omega)) hk) fun p _ hp => ?_
    refine bind (hoperand.within (by omega)) fun source _ hs => ?_
    refine left fun l l' _ hl₁ hl₂ hl₃ => ?_
    refine bind (conditions hF (hoperand.within (by omega)) hl₂ hl₃) fun tests _ ht => ?_
    refine acceptWord hF (fun _ hf => ?_) ((Reads.pure _).weaken (by omega))
    exact (map (ih (hoperand.within (by omega)) (by omega)) _).weaken (by omega)

/-! ## Displays and trailers -/

section

variable {expr expr' operand operand' : Reader Term} (hF : Ended F)
  (hexpr : Reads F G 1 K expr expr') (hoperand : Reads F G 1 K operand operand')

include hF hexpr hoperand

theorem display {α : Type} {close : Symbol} {nothing : α} {single : Term → α}
    {several : List Term → α} {comprehension : Term → List Clause → α} :
    Reads F G 1 K (display close nothing single several comprehension expr operand)
      (display close nothing single several comprehension expr' operand') := by
  refine accept_some hF (fun _ _ => Reads.pure _) (bind hexpr fun first J hJ => ?_)
  refine acceptWord hF (fun I hI => ?_) (accept nofun hF (fun I hI => ?_) ?_)
  · refine left fun m m' _ _ _ hm => ?_
    refine bind (clauses hF (hoperand.within (by omega)) hm) fun cs _ _ => ?_
    exact bind (expect hF) fun _ _ _ => (Reads.pure _).weaken (by omega)
  · refine left fun m m' _ _ _ hm => ?_
    refine bind (itemsUpTo hF (hexpr.within (by omega)) hm) fun _ _ _ => ?_
    exact (Reads.pure _).weaken (by omega)
  · exact bind (expect hF) fun _ _ _ => (Reads.pure _).weaken (by omega)

omit hoperand

theorem entry : Reads F G 1 K (entry expr) (entry expr') := by
  refine bind hexpr fun key _ _ => bind (expect hF) fun _ _ _ => ?_
  exact (map (hexpr.within (by omega)) _).weaken (by omega)

theorem sliceBound : Reads F G 0 K (sliceBound expr) (sliceBound expr') := by
  have hkey : Reads F G 0 K (do return some (← expr)) (do return some (← expr')) :=
    (map hexpr some).weaken (Nat.zero_le 1)
  refine peek hF ?_ ?_
  · intro t ht
    simp only [List.mem_cons, List.not_mem_nil, or_false] at ht
    rcases ht with rfl | rfl <;> exact hkey [] nofun (Nat.zero_le K)
  · intro t q hq hK
    split
    · exact ReadsAt.of_pure none
    · exact ReadsAt.of_pure none
    · exact ReadsAt.of_pure none
    · exact hkey (t :: q) hq hK

theorem subscriptAfter_none :
    Reads F G 1 K (subscriptAfter expr none) (subscriptAfter expr' none) := by
  refine accept nofun hF (fun J hJ => ?_) (Reads.failure _)
  refine bind (sliceBound hF (hexpr.within (by omega))) fun high _ _ => ?_
  exact bind (accepted nofun hF) fun _ _ _ => Reads.pure _

theorem subscriptAfter_some (key : Term) :
    Reads F G 0 K (subscriptAfter expr (some key)) (subscriptAfter expr' (some key)) := by
  refine accept nofun hF (fun J hJ => ?_) (Reads.pure _)
  refine bind (sliceBound hF (hexpr.within (by omega))) fun high _ _ => ?_
  exact bind (accepted nofun hF) fun _ _ _ => Reads.pure _

omit hF hexpr in
/-- The next token tells whether a subscript begins with a bound. -/
theorem subscript_eq (t : Token) :
    (∀ (expr : Reader Term) rest,
      Term.subscript expr (t :: rest) = subscriptAfter expr none (t :: rest)) ∨
    (∀ (expr : Reader Term) rest, Term.subscript expr (t :: rest) =
      (do subscriptAfter expr (some (← expr))) (t :: rest)) := by
  have hkey (h : ∀ expr rest, Term.sliceBound expr (t :: rest) = (do return some (← expr)) (t :: rest))
      (expr : Reader Term) (rest : List Token) : Term.subscript expr (t :: rest) =
        (do subscriptAfter expr (some (← expr))) (t :: rest) := by
    rw [Term.subscript, bind_eq, h, ← bind_eq, bind_assoc]
    simp only [pure_bind]
  cases t with
  | symbol s =>
    cases s with
    | colon | comma | closeBracket => exact .inl fun _ _ => rfl
    | _ => exact .inr (hkey fun _ _ => rfl)
  | _ => exact .inr (hkey fun _ _ => rfl)

theorem subscript : Reads F G 1 K (subscript expr) (subscript expr') := by
  have hkey : Reads F G 1 K (do subscriptAfter expr (some (← expr)))
      (do subscriptAfter expr' (some (← expr'))) :=
    bind hexpr fun key J hJ => subscriptAfter_some hF (hexpr.within (by omega)) key
  intro q hq hK x us hr
  cases q with
  | nil =>
    have hend : Term.sliceBound expr F = none := by
      have := (map hexpr some).at_end
      cases hF <;> exact this
    rw [List.nil_append, Term.subscript, bind_eq, hend] at hr
    cases hr
  | cons t q =>
    rw [List.cons_append] at hr ⊢
    rcases subscript_eq t with h | h
    · rw [h] at hr ⊢
      exact subscriptAfter_none hF hexpr (t :: q) hq hK hr
    · rw [h] at hr ⊢
      exact hkey (t :: q) hq hK hr

theorem subscripts (subject : Term) :
    Reads F G 1 K (subscripts expr subject) (subscripts expr' subject) := by
  refine bind (subscript hF hexpr) fun first J hJ => ?_
  refine accept nofun hF (fun I hI => left fun m m' _ _ _ hm => ?_) ?_
  · refine bind (itemsUpTo hF (subscript hF (hexpr.within (by omega))) hm) fun _ _ _ => ?_
    exact (Reads.pure _).weaken (by omega)
  · exact bind (expect hF) fun _ _ _ => (Reads.pure _).weaken (by omega)

include hoperand

theorem trailers {n n' : Nat} (hn : K ≤ n) (hn' : K < n') (subject : Term) :
    Reads F G 0 K (trailers expr operand n subject) (trailers expr' operand' n' subject) := by
  induction n generalizing n' K subject with
  | zero =>
    obtain ⟨n', rfl⟩ : ∃ m, n' = m + 1 := ⟨n' - 1, by omega⟩
    exact nothing (by omega) rfl
  | succ n ih =>
    obtain ⟨n', rfl⟩ : ∃ m, n' = m + 1 := ⟨n' - 1, by omega⟩
    have next {I : Nat} (hI : I < K) (t : Term) : Reads F G 0 I
        (Term.trailers expr operand n t) (Term.trailers expr' operand' n' t) :=
      ih (hexpr.within (by omega)) (hoperand.within (by omega)) (by omega) (by omega) t
    refine accept nofun hF (fun J hJ => ?_) (accept nofun hF (fun J hJ => ?_)
      (accept nofun hF (fun J hJ => ?_) (Reads.pure _)))
    · exact bind (identifier hF) fun id _ _ => next (by omega) _
    · refine bind (display hF (hexpr.within (by omega)) (hoperand.within (by omega))) ?_
      exact fun args _ _ => next (by omega) _
    · exact bind (subscripts hF (hexpr.within (by omega)) subject) fun t _ _ => next (by omega) t

omit hexpr hoperand

theorem moreStrings {n n' : Nat} (hn : K ≤ n) (hn' : K < n') :
    Reads F G 0 K (moreStrings n) (moreStrings n') := by
  induction n generalizing n' K with
  | zero =>
    obtain ⟨n', rfl⟩ : ∃ m, n' = m + 1 := ⟨n' - 1, by omega⟩
    exact nothing (by omega) rfl
  | succ n ih =>
    obtain ⟨n', rfl⟩ : ∃ m, n' = m + 1 := ⟨n' - 1, by omega⟩
    refine peek hF ?_ ?_
    · intro t ht
      simp only [List.mem_cons, List.not_mem_nil, or_false] at ht
      rcases ht with rfl | rfl <;> exact ReadsAt.of_pure []
    · intro t q hq hK
      cases t with
      | str s => exact ReadsAt.skip hq (map (ih (by omega) (by omega)) _)
      | _ => exact ReadsAt.of_pure []

end

section

variable {expr expr' operand operand' : Reader Term} (hF : Ended F)
  (hexpr : ∀ J, J < K → Reads F G 1 J expr expr')
  (hoperand : ∀ J, J < K → Reads F G 1 J operand operand')

include hF hexpr hoperand

theorem atom : Reads F G 1 K (atom expr operand) (atom expr' operand') := by
  refine peek hF ?_ ?_
  · intro t ht
    simp only [List.mem_cons, List.not_mem_nil, or_false] at ht
    rcases ht with rfl | rfl <;> exact nofun
  · intro t q hq hK
    split
    case h_4 =>
      refine ReadsAt.skip hq (left fun m m' _ _ hm hm' => ?_)
      exact map (moreStrings hF hm hm') _
    case h_8 => exact ReadsAt.skip hq (display hF (hexpr _ hK) (hoperand _ hK)).any
    case h_9 => exact ReadsAt.skip hq (display hF (hexpr _ hK) (hoperand _ hK)).any
    case h_10 =>
      refine ReadsAt.skip hq (left fun m m' _ _ hm hm' => ?_)
      exact (map (itemsUpTo hF (entry hF (hexpr _ (by omega))) hm') _).any
    case h_11 => exact nofun
    all_goals exact ReadsAt.skip hq (Reads.pure _)

theorem primary : Reads F G 1 K (primary expr operand) (primary expr' operand') := by
  refine bind (atom hF hexpr hoperand) fun first J hJ => left fun m m' I hI hm hm' => ?_
  exact (trailers hF (hexpr _ (by omega)) (hoperand _ (by omega)) hm hm' first).weaken (by omega)

/-! ## Operators -/

theorem signed {n n' : Nat} (hn' : K < n') :
    Reads F G 1 K (signed expr operand n) (signed expr' operand' n') := by
  induction n generalizing n' K with
  | zero => exact Reads.failure _
  | succ n ih =>
    obtain ⟨n', rfl⟩ : ∃ m, n' = m + 1 := ⟨n' - 1, by omega⟩
    have next (op : UnaryOp) (J : Nat) (hJ : J < K) : Reads F G 0 J
        (do return Term.unary op (← Term.signed expr operand n))
        (do return Term.unary op (← Term.signed expr' operand' n')) :=
      (map (ih (fun I hI => hexpr I (by omega)) (fun I hI => hoperand I (by omega))
        (by omega)) _).any
    exact accept nofun hF (next .minus) (accept nofun hF (next .plus) (primary hF hexpr hoperand))

/-- A signed primary, as deep as there are tokens left. -/
theorem signedPrimary : Reads F G 1 K (do Term.signed expr operand ((← Reader.left) + 1))
    (do Term.signed expr' operand' ((← Reader.left) + 1)) :=
  left fun _ _ _ hJ _ hm => signed hF (fun I hI => hexpr I (Nat.lt_of_lt_of_le hI hJ))
    (fun I hI => hoperand I (Nat.lt_of_lt_of_le hI hJ)) (Nat.lt_succ_of_lt hm)

theorem product : Reads F G 1 K (product expr operand) (product expr' operand') := by
  have hpart := signedPrimary hF hexpr hoperand
  refine left fun m m' I hI _ hm => bind (signed hF (fun J hJ => hexpr J (by omega))
    (fun J hJ => hoperand J (by omega)) (by omega)) fun first J hJ => ?_
  refine left fun k k' L hL hk hk' => ?_
  exact (chain hF rfl rfl (hpart.within (by omega)) hk hk' first).weaken (by omega)

theorem sum : Reads F G 1 K (sum expr operand) (sum expr' operand') := by
  have hpart := product hF hexpr hoperand
  refine bind hpart fun first J hJ => left fun m m' I hI hm hm' => ?_
  exact (chain hF rfl rfl (hpart.within (by omega)) hm hm' first).weaken (by omega)

omit hexpr hoperand in
/-- A comparison operator is there on both sides, or on neither. -/
theorem compareOp (q : List Token) :
    (compareOp? (q ++ F) = some (none, q ++ F) ∧
      compareOp? (q ++ .symbol .closeParen :: G) =
        some (none, q ++ .symbol .closeParen :: G)) ∨
    ∃ op p rest, q = p ++ rest ∧ 1 ≤ p.length ∧ compareOp? (q ++ F) = some (some op, rest ++ F) ∧
      compareOp? (q ++ .symbol .closeParen :: G) =
        some (some op, rest ++ .symbol .closeParen :: G) := by
  have one {t : Token} {q : List Token} (op : CompareOp)
      (h : ∀ rest, compareOp? (t :: q ++ rest) = some (some op, q ++ rest)) :
      ∃ op p rest, t :: q = p ++ rest ∧ 1 ≤ p.length ∧
        compareOp? (t :: q ++ F) = some (some op, rest ++ F) ∧
        compareOp? (t :: q ++ .symbol .closeParen :: G) =
          some (some op, rest ++ .symbol .closeParen :: G) :=
    ⟨op, [t], q, rfl, Nat.le_refl 1, h _, h _⟩
  have two {t u : Token} {q : List Token} (op : CompareOp)
      (h : ∀ rest, compareOp? (t :: u :: q ++ rest) = some (some op, q ++ rest)) :
      ∃ op p rest, t :: u :: q = p ++ rest ∧ 1 ≤ p.length ∧
        compareOp? (t :: u :: q ++ F) = some (some op, rest ++ F) ∧
        compareOp? (t :: u :: q ++ .symbol .closeParen :: G) =
          some (some op, rest ++ .symbol .closeParen :: G) :=
    ⟨op, [t, u], q, rfl, Nat.le_succ 1, h _, h _⟩
  -- an operator looks at two tokens at most, and the sides differ only behind `q`
  cases q with
  | nil => cases hF <;> exact .inl ⟨rfl, rfl⟩
  | cons t q =>
    cases t with
    | symbol s =>
      cases s with
      | equal => exact .inr (one .eq fun _ => rfl)
      | notEqual => exact .inr (one .ne fun _ => rfl)
      | less => exact .inr (one .lt fun _ => rfl)
      | lessEqual => exact .inr (one .le fun _ => rfl)
      | greater => exact .inr (one .gt fun _ => rfl)
      | greaterEqual => exact .inr (one .ge fun _ => rfl)
      | _ => exact .inl ⟨rfl, rfl⟩
    | keyword k =>
      cases k with
      | inWord => exact .inr (one .isIn fun _ => rfl)
      | notWord =>
        cases q with
        | nil => cases hF <;> exact .inl ⟨rfl, rfl⟩
        | cons u q =>
          cases u with
          | keyword k =>
            cases k with
            | inWord => exact .inr (two .notIn fun _ => rfl)
            | _ => exact .inl ⟨rfl, rfl⟩
          | _ => exact .inl ⟨rfl, rfl⟩
      | isWord =>
        cases q with
        | nil => cases hF <;> exact .inr ⟨.same, [_], [], rfl, Nat.le_refl 1, rfl, rfl⟩
        | cons u q =>
          cases u with
          | keyword k =>
            cases k with
            | notWord => exact .inr (two .notSame fun _ => rfl)
            | _ => exact .inr (one .same fun _ => rfl)
          | _ => exact .inr (one .same fun _ => rfl)
      | _ => exact .inl ⟨rfl, rfl⟩
    | _ => exact .inl ⟨rfl, rfl⟩

omit hexpr hoperand in
theorem comparisons {part part' : Reader Term} (hpart : Reads F G 1 K part part') {n n' : Nat}
    (hn : K ≤ n) (hn' : K < n') :
    Reads F G 0 K (comparisons part n) (comparisons part' n') := by
  induction n generalizing n' K with
  | zero =>
    obtain ⟨n', rfl⟩ : ∃ m, n' = m + 1 := ⟨n' - 1, by omega⟩
    exact nothing (by omega) rfl
  | succ n ih =>
    obtain ⟨n', rfl⟩ : ∃ m, n' = m + 1 := ⟨n' - 1, by omega⟩
    intro q hq hK x us hr
    rw [Term.comparisons, bind_eq] at hr ⊢
    rcases compareOp (G := G) hF q with ⟨h, h'⟩ | ⟨op, p, rest, rfl, hp, h, h'⟩
    · rw [h] at hr
      rw [h']
      cases hr
      exact ⟨[], q, rfl, Nat.le_refl 0, rfl, rfl⟩
    · rw [h] at hr
      rw [h']
      rw [List.length_append] at hK
      have htail := bind (e := 0) (hpart.within (J := rest.length) (by omega)) fun right J hJ =>
        map (ih (hpart.within (show J ≤ K by omega)) (by omega) (show J < n' by omega))
          (fun others => (op, right) :: others)
      obtain ⟨p', rest', rfl, -, hus, hr'⟩ := htail rest hq.right Nat.le.refl hr
      exact ⟨p ++ p', rest', by rw [List.append_assoc], Nat.zero_le _, hus, hr'⟩

theorem comparison : Reads F G 1 K (comparison expr operand) (comparison expr' operand') := by
  have hpart := sum hF hexpr hoperand
  refine bind hpart fun first J hJ => left fun m m' I hI hm hm' => ?_
  refine bind (comparisons hF (hpart.within (by omega)) hm hm') fun rest _ _ => ?_
  cases rest with
  | nil => exact (Reads.pure _).weaken (by omega)
  | cons => exact (Reads.pure _).weaken (by omega)

theorem negation {n n' : Nat} (hn' : K < n') :
    Reads F G 1 K (negation expr operand n) (negation expr' operand' n') := by
  induction n generalizing n' K with
  | zero => exact Reads.failure _
  | succ n ih =>
    obtain ⟨n', rfl⟩ : ∃ m, n' = m + 1 := ⟨n' - 1, by omega⟩
    refine acceptWord hF (fun J hJ => ?_) (comparison hF hexpr hoperand)
    exact (map (ih (fun I hI => hexpr I (by omega)) (fun I hI => hoperand I (by omega))
      (by omega)) _).any

omit hexpr hoperand in
theorem wordChain {word : Keyword} {join : Term → Term → Term} {part part' : Reader Term}
    (hpart : Reads F G 1 K part part') {n n' : Nat} (hn : K ≤ n) (hn' : K < n') (first : Term) :
    Reads F G 0 K (wordChain word join part n first) (wordChain word join part' n' first) := by
  induction n generalizing n' K first with
  | zero =>
    obtain ⟨n', rfl⟩ : ∃ m, n' = m + 1 := ⟨n' - 1, by omega⟩
    exact nothing (by omega) rfl
  | succ n ih =>
    obtain ⟨n', rfl⟩ : ∃ m, n' = m + 1 := ⟨n' - 1, by omega⟩
    refine acceptWord hF (fun J hJ => ?_) (Reads.pure first)
    refine bind (hpart.within (by omega)) fun second I hI => ?_
    exact ih (hpart.within (by omega)) (by omega) (by omega) _

theorem conjunction : Reads F G 1 K (conjunction expr operand) (conjunction expr' operand') := by
  have hpart : Reads F G 1 K (do Term.negation expr operand ((← Reader.left) + 1))
      (do Term.negation expr' operand' ((← Reader.left) + 1)) :=
    left fun _ _ _ hJ _ hm => negation hF (fun I hI => hexpr I (Nat.lt_of_lt_of_le hI hJ))
      (fun I hI => hoperand I (Nat.lt_of_lt_of_le hI hJ)) (Nat.lt_succ_of_lt hm)
  refine left fun m m' I hI hm hm' => bind (hpart.within hI) fun first J hJ => ?_
  exact (wordChain hF (hpart.within (by omega)) (by omega) (by omega) first).weaken (by omega)

theorem disjunctionWith :
    Reads F G 1 K (disjunctionWith expr operand) (disjunctionWith expr' operand') := by
  have hpart := conjunction hF hexpr hoperand
  refine left fun m m' I hI hm hm' => bind (hpart.within hI) fun first J hJ => ?_
  exact (wordChain hF (hpart.within (by omega)) (by omega) (by omega) first).weaken (by omega)

theorem exprWith : Reads F G 1 K (exprWith expr operand) (exprWith expr' operand') := by
  have hpart := disjunctionWith hF hexpr hoperand
  refine bind hpart fun first J hJ => acceptWord hF (fun I hI => ?_)
    ((Reads.pure first).weaken (by omega))
  refine bind (hpart.within (by omega)) fun condition I' _ => bind (expectWord hF) fun _ L hL => ?_
  exact (map (hexpr L (by omega)) _).weaken (by omega)

end

/-- **Expressions and disjunctions are read before a parenthesis as before an end.** -/
theorem readers (hF : Ended F) {n n' : Nat} (hn' : K < n') :
    Reads F G 1 K (readers n).1 (readers n').1 ∧ Reads F G 1 K (readers n).2 (readers n').2 := by
  induction n generalizing n' K with
  | zero => exact ⟨Reads.failure _, Reads.failure _⟩
  | succ n ih =>
    obtain ⟨n', rfl⟩ : ∃ m, n' = m + 1 := ⟨n' - 1, by omega⟩
    have inner (J : Nat) (hJ : J < K) := ih (show J < n' by omega)
    have hexpr (J : Nat) (hJ : J < K) := (inner J hJ).1
    have hoperand (J : Nat) (hJ : J < K) := (inner J hJ).2
    exact ⟨exprWith hF hexpr hoperand, disjunctionWith hF hexpr hoperand⟩

end Reads

end Stencil.Term
