import Stencil.Term.Grammar

/-!
# Reading before a closing parenthesis

An expression is evaluated as if it stood in parentheses. What follows it is then a closing
parenthesis and not the end of its text, and more tokens are left than there were. `Reads` says of
two readers that the second one reads in front of a parenthesis what the first one reads in front
of the end. Readers decide by the next token, and neither an end nor the parenthesis continues
anything, so the relation goes through all of them.

Repetitions are bounded by the number of tokens left, which is not the same on both sides; the
rules for `left` say what is known of the two bounds.
-/

namespace Stencil.Term

open Reader

/-- Nothing, or a line end and whatever is behind it. -/
inductive Ended : List Token → Prop
  | nil : Ended []
  | lineEnd (rest : List Token) : Ended (.lineEnd :: rest)

/-- Tokens without a line end. -/
def OneLine (q : List Token) : Prop :=
  ∀ t ∈ q, t ≠ .lineEnd

/-- On the tokens `q`, the second reader reads in front of a closing parenthesis what the first one
reads in front of `F`, which is at least `d` tokens. -/
def ReadsAt {α : Type} (F G : List Token) (d : Nat) (q : List Token) (r r' : Reader α) : Prop :=
  ∀ ⦃x us⦄, r (q ++ F) = some (x, us) → ∃ p rest, q = p ++ rest ∧ d ≤ p.length ∧
    us = rest ++ F ∧
    r' (q ++ .symbol .closeParen :: G) = some (x, rest ++ .symbol .closeParen :: G)

/-- The relation on all lines of at most `K` tokens. -/
def Reads {α : Type} (F G : List Token) (d K : Nat) (r r' : Reader α) : Prop :=
  ∀ q, OneLine q → q.length ≤ K → ReadsAt F G d q r r'

variable {α β : Type} {F G : List Token} {d e K : Nat}

theorem OneLine.right {p q : List Token} (h : OneLine (p ++ q)) : OneLine q :=
  fun t ht => h t (List.mem_append_right p ht)

theorem OneLine.tail {t : Token} {q : List Token} (h : OneLine (t :: q)) : OneLine q :=
  OneLine.right (p := [t]) h

/-! ## Sequences -/

namespace Reads

theorem weaken {r r' : Reader α} (h : Reads F G e K r r') (hd : d ≤ e) : Reads F G d K r r' := by
  intro q hq hK x us hr
  obtain ⟨p, rest, hp, he, hus, hr'⟩ := h q hq hK hr
  exact ⟨p, rest, hp, Nat.le_trans hd he, hus, hr'⟩

theorem any {r r' : Reader α} (h : Reads F G e K r r') : Reads F G 0 K r r' :=
  h.weaken (Nat.zero_le e)

theorem within {J : Nat} {r r' : Reader α} (h : Reads F G d K r r') (hJ : J ≤ K) :
    Reads F G d J r r' :=
  fun q hq hK => h q hq (Nat.le_trans hK hJ)

protected theorem pure (x : α) : Reads F G 0 K (pure x) (pure x) := by
  intro q _ _ y us hr
  cases hr
  exact ⟨[], q, rfl, Nat.le_refl _, rfl, rfl⟩

protected theorem failure (r' : Reader α) : Reads F G d K failure r' := by
  intro q _ _ y us hr
  cases hr

theorem bind_eq (r : Reader α) (f : α → Reader β) (ts : List Token) :
    (r >>= f) ts = (r ts).bind fun p => f p.1 p.2 := rfl

theorem get_eq (ts : List Token) : (get : Reader (List Token)) ts = some (ts, ts) := rfl

theorem peek_eq (ts : List Token) : Reader.peek ts = some (ts.head?, ts) := rfl

theorem of_bind {r : Reader α} {f : α → Reader β} {ts us : List Token} {y : β}
    (h : (r >>= f) ts = some (y, us)) :
    ∃ x vs, r ts = some (x, vs) ∧ f x vs = some (y, us) := by
  rw [bind_eq] at h
  obtain ⟨⟨x, vs⟩, hr, hf⟩ := Option.bind_eq_some_iff.mp h
  exact ⟨x, vs, hr, hf⟩

/-- What comes second may use that fewer tokens are left if the first reader has read some. -/
theorem bind {r r' : Reader α} {f f' : α → Reader β} (h : Reads F G d K r r')
    (hf : ∀ x J, J + d ≤ K → Reads F G (e - d) J (f x) (f' x)) :
    Reads F G e K (r >>= f) (r' >>= f') := by
  intro q hq hK y us hr
  obtain ⟨x, vs, hx, hr⟩ := of_bind hr
  obtain ⟨p, rest, rfl, hd, rfl, hr'⟩ := h q hq hK hx
  rw [List.length_append] at hK
  obtain ⟨p', rest', rfl, hd', rfl, hf'⟩ := hf x rest.length (by omega) rest hq.right Nat.le.refl hr
  refine ⟨p ++ p', rest', by rw [List.append_assoc], by rw [List.length_append]; omega, rfl, ?_⟩
  rw [bind_eq, hr']
  exact hf'

/-- Where nothing is left, a reader may have nothing to do but to see the parenthesis. -/
theorem nothing {x : α} {r' : Reader α} (hK : K = 0)
    (h : r' (.symbol .closeParen :: G) = some (x, .symbol .closeParen :: G)) :
    Reads F G 0 K (Pure.pure x) r' := by
  intro q _ hq y us hr
  obtain rfl : q = [] := List.length_eq_zero_iff.mp (by omega)
  cases hr
  exact ⟨[], [], rfl, Nat.le_refl _, rfl, h⟩

theorem map {r r' : Reader α} (h : Reads F G d K r r') (f : α → β) :
    Reads F G d K (do return f (← r)) (do return f (← r')) :=
  bind h fun _ _ _ => (Reads.pure _).weaken (by omega)

/-- A reader that has read something fails where there is nothing to read. -/
theorem at_end {r r' : Reader α} (h : Reads F G 1 K r r') : r F = none := by
  rcases hr : r F with _ | ⟨x, us⟩
  · rfl
  · obtain ⟨p, rest, hp, hd, -⟩ := h [] (by simp [OneLine]) (Nat.zero_le K) hr
    rw [List.nil_eq_append_iff] at hp
    simp [hp.1] at hd

/-- The tokens left bound what follows on both sides. -/
theorem left {f f' : Nat → Reader α}
    (h : ∀ n n' J, J ≤ K → J ≤ n → J < n' → Reads F G d J (f n) (f' n')) :
    Reads F G d K (Reader.left >>= f) (Reader.left >>= f') := by
  intro q hq hK x us hr
  have hn : q.length ≤ (q ++ F).length := by simp
  have hn' : q.length < (q ++ .symbol .closeParen :: G).length := by simp
  exact h _ _ q.length hK hn hn' q hq Nat.le.refl hr

end Reads

/-! ## The next token -/

section

variable (hF : Ended F)

include hF

/-- A reader that looks at the next token: nothing is there, or a token that is no line end. -/
theorem Reads.peek {f f' : Option Token → Reader α}
    (hend : ∀ t ∈ [none, some .lineEnd],
      ReadsAt F G d [] (f t) (f' (some (.symbol .closeParen))))
    (hnext : ∀ t q, OneLine (t :: q) → q.length < K →
      ReadsAt F G d (t :: q) (f (some t)) (f' (some t))) :
    Reads F G d K (Reader.peek >>= f) (Reader.peek >>= f') := by
  intro q hq hK
  cases q with
  | nil =>
    cases hF with
    | nil => exact hend none (by simp)
    | lineEnd rest => exact hend (some .lineEnd) (by simp)
  | cons t q =>
    exact hnext t q hq hK

omit hF in
/-- After a token that is skipped. -/
theorem ReadsAt.skip {t : Token} {q : List Token} {r r' : Reader α}
    (hq : OneLine (t :: q)) (h : Reads F G (d - 1) q.length r r') :
    ReadsAt F G d (t :: q) (do Reader.skip; r) (do Reader.skip; r') := by
  intro x us hr
  obtain ⟨p, rest, hp, hd, hus, hr'⟩ := h q hq.tail Nat.le.refl hr
  exact ⟨t :: p, rest, by rw [hp, List.cons_append], by rw [List.length_cons]; omega, hus, hr'⟩

omit hF in
theorem ReadsAt.of_pure {q : List Token} (x : α) : ReadsAt F G 0 q (pure x) (pure x) := by
  intro y us hr
  cases hr
  exact ⟨[], q, rfl, Nat.le_refl _, rfl, rfl⟩

end

/-! ## Choices by the next token -/

/-- A reader that tells whether the next token is `t`, and reads it then. -/
structure Tests (b : Reader Bool) (t : Token) : Prop where
  nil : b [] = some (false, [])
  same (rest : List Token) : b (t :: rest) = some (true, rest)
  other {u : Token} (h : u ≠ t) (rest : List Token) : b (u :: rest) = some (false, u :: rest)

theorem tests_accept (s : Symbol) : Tests (accept s) (.symbol s) where
  nil := rfl
  same rest := by
    show ((if s = s then _ else _ : Reader Bool) _) = _
    rw [if_pos rfl]
    rfl
  other {u} h rest := by
    cases u with
    | symbol u =>
      show ((if u = s then _ else _ : Reader Bool) _) = _
      rw [if_neg fun hu => h (by rw [hu])]
      rfl
    | _ => rfl

theorem tests_acceptWord (k : Keyword) : Tests (acceptWord k) (.keyword k) where
  nil := rfl
  same rest := by
    show ((if k = k then _ else _ : Reader Bool) _) = _
    rw [if_pos rfl]
    rfl
  other {u} h rest := by
    cases u with
    | keyword u =>
      show ((if u = k then _ else _ : Reader Bool) _) = _
      rw [if_neg fun hu => h (by rw [hu])]
      rfl
    | _ => rfl

section

variable {b : Reader Bool} {t : Token} {yes yes' no no' : Reader α}

namespace Tests

theorem at_end (hb : Tests b t) (ht : t ≠ .lineEnd) (hF : Ended F) : b F = some (false, F) := by
  cases hF with
  | nil => exact hb.nil
  | lineEnd rest => exact hb.other ht.symm rest

theorem yes_eq (hb : Tests b t) (rest : List Token) :
    (do if ← b then yes else no : Reader α) (t :: rest) = yes rest := by
  rw [Reads.bind_eq, hb.same]
  rfl

theorem no_eq (hb : Tests b t) {u : Token} (hu : u ≠ t) (rest : List Token) :
    (do if ← b then yes else no : Reader α) (u :: rest) = no (u :: rest) := by
  rw [Reads.bind_eq, hb.other hu]
  rfl

theorem end_eq (hb : Tests b t) (ht : t ≠ .lineEnd) (hF : Ended F) :
    (do if ← b then yes else no : Reader α) F = no F := by
  rw [Reads.bind_eq, hb.at_end ht hF]
  rfl

/-- On a line that begins with a token, both readers go the same way. -/
theorem readsAt_cons (hb : Tests b t) {u : Token} {q : List Token} (hq : OneLine (u :: q))
    (hK : (u :: q).length ≤ K) (hyes : ∀ J, J < K → Reads F G (d - 1) J yes yes')
    (hno : Reads F G d K no no') :
    ReadsAt F G d (u :: q) (do if ← b then yes else no) (do if ← b then yes' else no') := by
  intro x us hr
  by_cases hu : u = t
  · subst hu
    rw [List.cons_append, hb.yes_eq] at hr
    obtain ⟨p, rest, hp, hd, hus, hr'⟩ :=
      hyes q.length hK q hq.tail Nat.le.refl hr
    refine ⟨u :: p, rest, by rw [hp, List.cons_append], by rw [List.length_cons]; omega, hus, ?_⟩
    rwa [List.cons_append, hb.yes_eq]
  · rw [List.cons_append, hb.no_eq hu] at hr
    obtain ⟨p, rest, hp, hd, hus, hr'⟩ := hno (u :: q) hq hK hr
    refine ⟨p, rest, hp, hd, hus, ?_⟩
    rwa [List.cons_append, hb.no_eq hu]

/-- A choice by a token that is no closing parenthesis. -/
theorem reads (hb : Tests b t) (ht : t ≠ .lineEnd) (hc : .symbol .closeParen ≠ t) (hF : Ended F)
    (hyes : ∀ J, J < K → Reads F G (d - 1) J yes yes') (hno : Reads F G d K no no') :
    Reads F G d K (do if ← b then yes else no) (do if ← b then yes' else no') := by
  intro q hq hK
  cases q with
  | nil =>
    intro x us hr
    rw [List.nil_append, hb.end_eq ht hF] at hr
    obtain ⟨p, rest, hp, hd, hus, hr'⟩ := hno [] hq hK hr
    refine ⟨p, rest, hp, hd, hus, ?_⟩
    rwa [List.nil_append, hb.no_eq hc]
  | cons u q => exact hb.readsAt_cons hq hK hyes hno

/-- A choice by any token, if otherwise something is read in any case. -/
theorem reads_some (hb : Tests b t) (ht : t ≠ .lineEnd) (hF : Ended F)
    (hyes : ∀ J, J < K → Reads F G 0 J yes yes') (hno : Reads F G 1 K no no') :
    Reads F G 1 K (do if ← b then yes else no) (do if ← b then yes' else no') := by
  intro q hq hK
  cases q with
  | nil =>
    intro x us hr
    rw [List.nil_append, hb.end_eq ht hF, hno.at_end] at hr
    cases hr
  | cons u q => exact hb.readsAt_cons hq hK hyes hno

end Tests

namespace Reads

variable {s : Symbol} {k : Keyword}

theorem accept (hs : s ≠ .closeParen) (hF : Ended F)
    (hyes : ∀ J, J < K → Reads F G (d - 1) J yes yes') (hno : Reads F G d K no no') :
    Reads F G d K (do if ← Reader.accept s then yes else no)
      (do if ← Reader.accept s then yes' else no') :=
  (tests_accept s).reads nofun (fun h => hs (Token.symbol.inj h).symm) hF hyes hno

theorem accepted (hs : s ≠ .closeParen) (hF : Ended F) :
    Reads F G 0 K (Reader.accept s) (Reader.accept s) := by
  have h : Reader.accept s = (do if ← Reader.accept s then return true else return false) := by
    conv => lhs; rw [← bind_pure (Reader.accept s)]
    congr 1
    funext b
    cases b <;> rfl
  rw [h]
  exact accept hs hF (fun _ _ => Reads.pure true) (Reads.pure false)

theorem accept_some (hF : Ended F)
    (hyes : ∀ J, J < K → Reads F G 0 J yes yes') (hno : Reads F G 1 K no no') :
    Reads F G 1 K (do if ← Reader.accept s then yes else no)
      (do if ← Reader.accept s then yes' else no') :=
  (tests_accept s).reads_some nofun hF hyes hno

theorem acceptWord (hF : Ended F)
    (hyes : ∀ J, J < K → Reads F G (d - 1) J yes yes') (hno : Reads F G d K no no') :
    Reads F G d K (do if ← Reader.acceptWord k then yes else no)
      (do if ← Reader.acceptWord k then yes' else no') :=
  (tests_acceptWord k).reads nofun nofun hF hyes hno

theorem expect (hF : Ended F) : Reads F G 1 K (expect s) (expect s) :=
  accept_some hF (fun _ _ => Reads.pure ()) (Reads.failure _)

theorem expectWord (hF : Ended F) : Reads F G 1 K (expectWord k) (expectWord k) :=
  acceptWord hF (fun _ _ => Reads.pure ()) (Reads.failure _)

theorem identifier (hF : Ended F) : Reads F G 1 K identifier identifier := by
  refine peek hF ?_ ?_
  · intro t ht
    simp only [List.mem_cons, List.not_mem_nil, or_false] at ht
    rcases ht with rfl | rfl <;> exact Reads.failure _ [] (by simp [OneLine]) (Nat.zero_le 0)
  · intro t q hq _
    cases t with
    | name id => exact ReadsAt.skip hq (Reads.pure id)
    | _ => exact nofun

/-! ## Repetitions -/

theorem itemsUpTo {close : Symbol} {item item' : Reader α} (hF : Ended F)
    (hitem : Reads F G 1 K item item') {n n' : Nat} (hn : K < n') :
    Reads F G 1 K (itemsUpTo close item n) (itemsUpTo close item' n') := by
  induction n generalizing n' K with
  | zero => exact Reads.failure _
  | succ n ih =>
    obtain ⟨n', rfl⟩ : ∃ m, n' = m + 1 := ⟨n' - 1, by omega⟩
    refine accept_some hF (fun J _ => Reads.pure _) (bind hitem fun x J hJ => ?_)
    refine accept nofun hF (fun I hI => ?_) ?_
    · refine bind (ih (hitem.within (by omega)) (by omega)) fun p _ _ => ?_
      exact (Reads.pure _).weaken (by omega)
    · exact bind (expect hF) fun _ _ _ => (Reads.pure _).weaken (by omega)

theorem chain {operand operand' : Reader Term} {op? : Token → Option BinaryOp} (hF : Ended F)
    (hend : op? .lineEnd = none) (hclose : op? (.symbol .closeParen) = none)
    (hoperand : Reads F G 1 K operand operand') {n n' : Nat} (hn : K ≤ n) (hn' : K < n')
    (first : Term) : Reads F G 0 K (chain operand op? n first) (chain operand' op? n' first) := by
  induction n generalizing n' K first with
  | zero =>
    obtain ⟨n', rfl⟩ : ∃ m, n' = m + 1 := ⟨n' - 1, by omega⟩
    refine nothing (by omega) ?_
    rw [Reader.chain, bind_eq, peek_eq]
    dsimp only [List.head?, Option.bind]
    rw [hclose]
    rfl
  | succ n ih =>
    obtain ⟨n', rfl⟩ : ∃ m, n' = m + 1 := ⟨n' - 1, by omega⟩
    refine peek hF ?_ ?_
    · intro t ht
      have : t.bind op? = none := by
        simp only [List.mem_cons, List.not_mem_nil, or_false] at ht
        rcases ht with rfl | rfl
        · rfl
        · exact hend
      rw [this, Option.bind_some, hclose]
      exact ReadsAt.of_pure first
    · intro t q hq hK
      rw [Option.bind_some]
      cases op? t with
      | none => exact ReadsAt.of_pure first
      | some op =>
        refine ReadsAt.skip hq (bind (hoperand.within (by omega)) fun x J hJ => ?_)
        exact ih (hoperand.within (by omega)) (by omega) (by omega) _

end Reads

end

end Stencil.Term
