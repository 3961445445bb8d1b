import Stencil.Proofs.Agreement.Takes

/-!
# Matching side by side

Two matchers are run on two texts. The one tracks the other if both fail, or both succeed and come
to values and texts that are in some relation. There are rules for every way that matchers are
built, as there are for a single matcher.

A repetition is as long on both sides, if what is left after a step is as it was in front of it; in
general it is told what follows from each step and from the end (`Repeats.step`).
-/

namespace Stencil.Source

namespace Matcher

variable {α β γ δ : Type}

/-- What comes of two matchers at two places: both fail, or both read so many characters at
least, with values and remaining texts in a relation. -/
inductive Abreast (n : Nat) (p : Matcher α) (q : Matcher β)
    (Q : α → β → List Char → List Char → Prop) (o o' : Nat) : List Char → List Char → Prop
  | fail {x y : List Char} (hp : (p ⟨o, x⟩).result = none) (hq : (q ⟨o', y⟩).result = none) :
      Abreast n p q Q o o' x y
  | read {s t x y : List Char} {a : α} {b : β} (hs : n ≤ s.length) (ht : n ≤ t.length)
      (hp : (p ⟨o, s ++ x⟩).result = some (a, ⟨o + s.length, x⟩))
      (hq : (q ⟨o', t ++ y⟩).result = some (b, ⟨o' + t.length, y⟩)) (h : Q a b x y) :
      Abreast n p q Q o o' (s ++ x) (t ++ y)

/-- On texts in a relation, both matchers fail or both succeed, wherever the texts stand. If they
succeed they read so many characters at least, and come to values and remaining texts in another
relation. -/
def Tracks (n : Nat) (N : List Char → List Char → Prop) (p : Matcher α) (q : Matcher β)
    (Q : α → β → List Char → List Char → Prop) : Prop :=
  ∀ ⦃x y⦄, N x y → ∀ o o', Abreast n p q Q o o' x y

variable {n : Nat} {N N' : List Char → List Char → Prop} {p : Matcher α} {q : Matcher β}
  {Q Q' : α → β → List Char → List Char → Prop} {f : α → Matcher γ} {g : β → Matcher δ}
  {R : γ → δ → List Char → List Char → Prop}

/-- What the two matchers take each. -/
theorem Abreast.of_takes {s t x y : List Char} {P : α → Prop} {P' : β → Prop} (hp : p.Takes s x P)
    (hq : q.Takes t y P') (hs : n ≤ s.length) (ht : n ≤ t.length)
    (h : ∀ a b, P a → P' b → Q a b x y) (o o' : Nat) : Abreast n p q Q o o' (s ++ x) (t ++ y) := by
  obtain ⟨a, ha, hp⟩ := hp o
  obtain ⟨b, hb, hq⟩ := hq o'
  exact .read hs ht hp hq (h a b ha hb)

namespace Tracks

/-! ## Rules -/

theorem weaken (h : Tracks n N p q Q) (hN : ∀ x y, N' x y → N x y)
    (hQ : ∀ a b x y, Q a b x y → Q' a b x y) : Tracks n N' p q Q' := by
  intro x y hxy o o'
  rcases h (hN x y hxy) o o' with ⟨hp, hq⟩ | ⟨hs, ht, hp, hq, hQ'⟩
  · exact .fail hp hq
  · exact .read hs ht hp hq (hQ _ _ _ _ hQ')

theorem mono (h : Tracks n N p q Q) (hQ : ∀ a b x y, Q a b x y → Q' a b x y) :
    Tracks n N p q Q' :=
  h.weaken (fun _ _ h => h) hQ

theorem narrow (h : Tracks n N p q Q) (hN : ∀ x y, N' x y → N x y) : Tracks n N' p q Q :=
  h.weaken hN fun _ _ _ _ h => h

/-- It may be left out that something is read. -/
theorem relax (h : Tracks n N p q Q) : Tracks 0 N p q Q := by
  intro x y hxy o o'
  rcases h hxy o o' with ⟨hp, hq⟩ | ⟨-, -, hp, hq, hQ⟩
  · exact .fail hp hq
  · exact .read (Nat.zero_le _) (Nat.zero_le _) hp hq hQ

/-- What the texts tell may be used. -/
theorem given {P : Prop} (hP : ∀ x y, N x y → P) (h : P → Tracks n N p q Q) : Tracks n N p q Q :=
  fun x y hxy => h (hP x y hxy) hxy

theorem of_refuses (h : ∀ x y, N x y → p.Refuses x ∧ q.Refuses y) : Tracks n N p q Q :=
  fun x y hxy o o' => .fail ((h x y hxy).1 o) ((h x y hxy).2 o')

protected theorem pure {a : α} {b : β} (h : ∀ x y, N x y → Q a b x y) :
    Tracks 0 N (Pure.pure a) (Pure.pure b) Q :=
  fun x y hxy _ _ => .read (s := []) (t := []) (Nat.zero_le _) (Nat.zero_le _) rfl rfl (h x y hxy)

private theorem bind_add {k : Nat} (hp : Tracks n N p q Q)
    (hf : ∀ a b, Tracks k (Q a b) (f a) (g b) R) : Tracks (n + k) N (p >>= f) (q >>= g) R := by
  intro x y hxy o o'
  rcases hp hxy o o' with ⟨hp, hq⟩ | ⟨hs, ht, hp, hq, hQ⟩
  · refine .fail ?_ ?_
    · rw [result_bind, hp]
      rfl
    · rw [result_bind, hq]
      rfl
  · next s t x y a b =>
    rcases hf a b hQ (o + s.length) (o' + t.length) with ⟨hp', hq'⟩ | ⟨hs', ht', hp', hq', hR⟩
    · refine .fail ?_ ?_
      · rw [result_bind, hp]
        exact hp'
      · rw [result_bind, hq]
        exact hq'
    · next s' t' x y c d =>
      rw [← List.append_assoc, ← List.append_assoc]
      refine .read ?_ ?_ ?_ ?_ hR
      · rw [List.length_append]
        exact Nat.add_le_add hs hs'
      · rw [List.length_append]
        exact Nat.add_le_add ht ht'
      · rw [result_bind, List.append_assoc, hp, List.length_append, ← Nat.add_assoc]
        exact hp'
      · rw [result_bind, List.append_assoc, hq, List.length_append, ← Nat.add_assoc]
        exact hq'

protected theorem bind (hp : Tracks n N p q Q) (hf : ∀ a b, Tracks 0 (Q a b) (f a) (g b) R) :
    Tracks n N (p >>= f) (q >>= g) R :=
  bind_add hp hf

/-- What comes after the first step reads something. -/
theorem after (hp : Tracks 0 N p q Q) (hf : ∀ a b, Tracks n (Q a b) (f a) (g b) R) :
    Tracks n N (p >>= f) (q >>= g) R := by
  have h := bind_add hp hf
  rwa [Nat.zero_add] at h

/-- The last step only makes a value. -/
protected theorem map {a' : α → γ} {b' : β → δ} (hp : Tracks n N p q Q)
    (h : ∀ a b x y, Q a b x y → R (a' a) (b' b) x y) :
    Tracks n N (do return a' (← p)) (do return b' (← q)) R :=
  hp.bind fun a b => .pure (h a b)

protected theorem offset : Tracks 0 N Matcher.offset Matcher.offset fun _ _ => N :=
  fun _ _ hxy _ _ => .read (s := []) (t := []) (Nat.zero_le _) (Nat.zero_le _) rfl rfl hxy

/-- What comes of the second matcher, if something has come of the first. -/
theorem exists_read (h : Tracks n N p q Q) {x y : List Char} (hxy : N x y) {o : Nat} {a : α}
    {c : Cursor} (hp : (p ⟨o, x⟩).result = some (a, c)) (o' : Nat) :
    ∃ b d, (q ⟨o', y⟩).result = some (b, d) ∧ Q a b c.rest d.rest := by
  rcases h hxy o o' with ⟨hnone, -⟩ | ⟨-, -, hsome, hq, hQ⟩
  · rw [hnone] at hp
    cases hp
  · rw [hsome] at hp
    cases hp
    exact ⟨_, _, hq, hQ⟩

/-- Only results count. -/
theorem congr {p' : Matcher α} {q' : Matcher β} (h : Tracks n N p q Q)
    (hresult : ∀ x y, N x y → ∀ o o', (p' ⟨o, x⟩).result = (p ⟨o, x⟩).result ∧
      (q' ⟨o', y⟩).result = (q ⟨o', y⟩).result) : Tracks n N p' q' Q := by
  intro x y hxy o o'
  obtain ⟨hp', hq'⟩ := hresult x y hxy o o'
  rcases h hxy o o' with ⟨hp, hq⟩ | ⟨hs, ht, hp, hq, hQ⟩
  · exact .fail (hp'.trans hp) (hq'.trans hq)
  · exact .read hs ht (hp'.trans hp) (hq'.trans hq) hQ

protected theorem named (rule : Rule) (h : Tracks n N p q Q) :
    Tracks n N (named rule p) (named rule q) Q := by
  intro x y hxy o o'
  rcases h hxy o o' with ⟨hp, hq⟩ | ⟨hs, ht, hp, hq, hQ⟩
  · exact .fail (by rw [result_named, hp]) (by rw [result_named, hq])
  · exact .read hs ht (by rw [result_named, hp]) (by rw [result_named, hq]) hQ

protected theorem orElse {p' : Matcher α} {q' : Matcher β} (h : Tracks n N p q Q)
    (h' : Tracks n N p' q' Q) : Tracks n N (orElse p p') (orElse q q') Q := by
  intro x y hxy o o'
  rcases h hxy o o' with ⟨hp, hq⟩ | ⟨hs, ht, hp, hq, hQ⟩
  · rcases h' hxy o o' with ⟨hp', hq'⟩ | ⟨hs, ht, hp', hq', hQ⟩
    · exact .fail (by rw [result_orElse, hp, hp']; rfl) (by rw [result_orElse, hq, hq']; rfl)
    · exact .read hs ht (by rw [result_orElse, hp, hp']; rfl) (by rw [result_orElse, hq, hq']; rfl)
        hQ
  · exact .read hs ht (by rw [result_orElse, hp]; rfl) (by rw [result_orElse, hq]; rfl) hQ

protected theorem firstOf {ps : List (Matcher α)} {qs : List (Matcher β)}
    (h : List.Forall₂ (fun p q => Tracks n N p q Q) ps qs) :
    Tracks n N (firstOf ps) (firstOf qs) Q := by
  induction h with
  | nil => exact fun _ _ _ _ _ => .fail rfl rfl
  | cons hp _ ih => exact hp.orElse ih

/-- Lexemes are what was read. -/
protected theorem lexeme (h : Tracks n N p q Q) : Tracks n N (lexeme p) (lexeme q)
    fun l l' x y => N (l.chars ++ x) (l'.chars ++ y) ∧ ∃ a b, Q a b x y := by
  intro x y hxy o o'
  have hnone {α : Type} {p : Matcher α} {c : Cursor} (hp : (p c).result = none) :
      (lexeme p c).result = none := by
    unfold lexeme
    rcases hpc : p c with ⟨_ | ⟨a, d⟩, furthest⟩
    · rfl
    · rw [hpc] at hp
      cases hp
  have hsome {α : Type} {p : Matcher α} {o : Nat} {s x : List Char} {a : α}
      (hp : (p ⟨o, s ++ x⟩).result = some (a, ⟨o + s.length, x⟩)) :
      (lexeme p ⟨o, s ++ x⟩).result = some (⟨o, s⟩, ⟨o + s.length, x⟩) := by
    unfold lexeme
    rcases hpc : p ⟨o, s ++ x⟩ with ⟨_ | ⟨a, d⟩, furthest⟩
    · rw [hpc] at hp
      cases hp
    · rw [hpc] at hp
      cases hp
      simp
  rcases h hxy o o' with ⟨hp, hq⟩ | ⟨hs, ht, hp, hq, hQ⟩
  · exact .fail (hnone hp) (hnone hq)
  · exact .read hs ht (hsome hp) (hsome hq) ⟨hxy, _, _, hQ⟩

/-- Both find one or neither does, if one text is at its end where the other is. -/
protected theorem optional (h : Tracks n N p q Q) (hend : ∀ x y, N x y → (x = [] ↔ y = [])) :
    Tracks 0 N (optional p) (optional q) fun a b x y =>
      (a = none ∧ b = none ∧ N x y) ∨ ∃ c d, a = some c ∧ b = some d ∧ Q c d x y := by
  intro x y hxy o o'
  by_cases hx : x = []
  · have hy := (hend x y hxy).mp hx
    subst hx hy
    exact .read (s := []) (t := []) (Nat.zero_le _) (Nat.zero_le _) rfl rfl (.inl ⟨rfl, rfl, hxy⟩)
  have hy : y ≠ [] := mt (hend x y hxy).mpr hx
  rcases h hxy o o' with ⟨hp, hq⟩ | ⟨hs, ht, hp, hq, hQ⟩
  · refine .read (s := []) (t := []) (Nat.zero_le _) (Nat.zero_le _) ?_ ?_ (.inl ⟨rfl, rfl, hxy⟩)
    · simp [result_optional, hp, hx]
    · simp [result_optional, hq, hy]
  · refine .read (Nat.zero_le _) (Nat.zero_le _) ?_ ?_ (.inr ⟨_, _, rfl, rfl, hQ⟩)
    · rw [result_optional, hp, if_neg (by simpa using hx)]
      rfl
    · rw [result_optional, hq, if_neg (by simpa using hy)]
      rfl

end Tracks

/-! ### Lengths -/

/-- The texts are in the relation, and no longer than said. -/
def Within (N : List Char → List Char → Prop) (k l : Nat) (x y : List Char) : Prop :=
  N x y ∧ x.length ≤ k ∧ y.length ≤ l

/-- What is read is not left. -/
theorem Tracks.within (h : Tracks n N p q Q) (k l : Nat) :
    Tracks n (Within N (k + n) (l + n)) p q fun a b => Within (Q a b) k l := by
  rintro x y ⟨hxy, hk, hl⟩ o o'
  rcases h hxy o o' with ⟨hp, hq⟩ | ⟨hs, ht, hp, hq, hQ⟩
  · exact .fail hp hq
  · rw [List.length_append] at hk hl
    exact .read hs ht hp hq ⟨hQ, by omega, by omega⟩

theorem Tracks.of_within (h : ∀ k l, Tracks n (Within N k l) p q Q) : Tracks n N p q Q :=
  fun _ _ hxy => h _ _ ⟨hxy, Nat.le_refl _, Nat.le_refl _⟩

/-! ### Repetition -/

/-- What two repetitions come to from two texts, however many steps they are allowed, if these are
not too few. -/
def Repeats (p : Matcher α) (q : Matcher β) (J : List α → List β → List Char → List Char → Prop)
    (x y : List Char) : Prop :=
  ∀ n m o o', x.length ≤ n → y.length ≤ m →
    Abreast 0 (manyUpTo p n) (manyUpTo q m) J o o' x y

theorem Repeats.many {J : List α → List β → List Char → List Char → Prop} {x y : List Char}
    (h : Repeats p q J x y) (o o' : Nat) : Abreast 0 (many p) (many q) J o o' x y := by
  rcases h _ _ o o' (Nat.le_refl _) (Nat.le_refl _) with ⟨hp, hq⟩ | ⟨hs, ht, hp, hq, hJ⟩
  · exact .fail hp hq
  · exact .read hs ht hp hq hJ

theorem Repeats.mono {J J' : List α → List β → List Char → List Char → Prop} {x y : List Char}
    (h : Repeats p q J x y) (hJ : ∀ as bs x' y', J as bs x' y' → J' as bs x' y') :
    Repeats p q J' x y := by
  intro n m o o' hn hm
  rcases h n m o o' hn hm with ⟨hp, hq⟩ | ⟨hs, ht, hp, hq, hread⟩
  · exact .fail hp hq
  · exact .read hs ht hp hq (hJ _ _ _ _ hread)

/-- A repetition ends where the matcher fails. -/
theorem result_manyUpTo_stop {n : Nat} {c : Cursor} (hc : c.rest ≠ [])
    (hp : (p c).result = none) : (manyUpTo p (n + 1) c).result = some ([], c) := by
  show ((optional p >>= _) c).result = _
  rw [result_bind, result_optional, if_neg (by simpa using hc), hp]
  rfl

/-- A repetition goes on where the matcher has read something. -/
theorem result_manyUpTo_read {n : Nat} {c c' : Cursor} {a : α} (hc : c.rest ≠ [])
    (hp : (p c).result = some (a, c')) : (manyUpTo p (n + 1) c).result =
      (manyUpTo p n c').result.map fun r => (a :: r.1, r.2) := by
  show ((optional p >>= _) c).result = _
  rw [result_bind, result_optional, if_neg (by simpa using hc), hp]
  show ((Matcher.manyUpTo p n >>= _) c').result = Option.map _ (Matcher.manyUpTo p n c').result
  rw [result_bind]
  cases (Matcher.manyUpTo p n c').result <;> rfl

theorem result_manyUpTo_none {p : Matcher α} {x : List Char} (hp : x = [] ∨ p.Refuses x)
    (n o : Nat) : (manyUpTo p n ⟨o, x⟩).result = some ([], ⟨o, x⟩) := by
  cases n with
  | zero => rfl
  | succ n =>
    by_cases hx : x = []
    · subst hx
      rfl
    · exact result_manyUpTo_stop hx (hp.resolve_left hx o)

/-- Nothing is repeated. -/
theorem repeats_none {J : List α → List β → List Char → List Char → Prop} {x y : List Char}
    (hx : x = [] ∨ p.Refuses x) (hy : y = [] ∨ q.Refuses y) (hJ : J [] [] x y) :
    Repeats p q J x y := fun n m o o' _ _ =>
  .read (s := []) (t := []) (Nat.le_refl _) (Nat.le_refl _) (result_manyUpTo_none hx n o)
    (result_manyUpTo_none hy m o') hJ

/-- The second matcher takes something ahead. -/
theorem Repeats.ahead {J : List α → List β → List Char → List Char → Prop} {w x y : List Char}
    {P : β → Prop} (hw : w ≠ []) (hq : q.Takes w y P) (h : Repeats p q J x y) :
    Repeats p q (fun as bs x' y' => ∃ b rest, bs = b :: rest ∧ P b ∧ J as rest x' y') x (w ++ y) := by
  intro n m o o' hn hm
  have hlength := List.length_pos_iff.mpr hw
  rw [List.length_append] at hm
  obtain ⟨m, rfl⟩ := Nat.exists_eq_succ_of_ne_zero (show m ≠ 0 by omega)
  obtain ⟨b, hb, hread⟩ := hq o'
  have hstep : (manyUpTo q (m + 1) ⟨o', w ++ y⟩).result =
      (manyUpTo q m ⟨o' + w.length, y⟩).result.map fun r => (b :: r.1, r.2) :=
    result_manyUpTo_read (by simp [hw]) hread
  rcases h n m o (o' + w.length) hn (by omega) with ⟨hnone, hnone'⟩ | ⟨hs, ht, hsome, hsome', hJ⟩
  · exact .fail hnone (hstep.trans (by rw [hnone']; rfl))
  · rw [hsome', ← List.append_assoc] at hstep
    rw [← List.append_assoc]
    refine .read hs (Nat.zero_le _) hsome ?_ ⟨b, _, rfl, hb, hJ⟩
    rw [List.length_append, ← Nat.add_assoc]
    exact hstep

theorem Repeats.symm {J : List α → List β → List Char → List Char → Prop} {x y : List Char}
    (h : Repeats p q J x y) : Repeats q p (fun bs as y x => J as bs x y) y x := by
  intro m n o' o hm hn
  rcases h n m o o' hn hm with ⟨hp, hq⟩ | ⟨hs, ht, hp, hq, hJ⟩
  · exact .fail hq hp
  · exact .read ht hs hq hp hJ

/-- Both matchers take something ahead. -/
theorem Repeats.both {J : List α → List β → List Char → List Char → Prop} {s t x y : List Char}
    {P : α → Prop} {P' : β → Prop} (hs : s ≠ []) (hp : p.Takes s x P) (ht : t ≠ [])
    (hq : q.Takes t y P') (h : Repeats p q J x y) : Repeats p q (fun as bs x' y' =>
      ∃ a rest b rest', as = a :: rest ∧ bs = b :: rest' ∧ P a ∧ P' b ∧ J rest rest' x' y')
      (s ++ x) (t ++ y) := by
  refine ((h.symm.ahead hs hp).symm.ahead ht hq).mono ?_
  rintro _ _ x' y' ⟨b, rest', rfl, hb, a, rest, rfl, ha, hJ⟩
  exact ⟨a, rest, b, rest', rfl, rfl, ha, hb, hJ⟩

/-- A repetition from two texts is one step and then a repetition from what is left. -/
theorem Repeats.step {J : List α → List β → List Char → List Char → Prop}
    {K : List Char → List Char → List α → List β → List Char → List Char → Prop} {x y : List Char}
    (hx : x ≠ []) (hy : y ≠ []) (h : ∀ o o', Abreast 1 p q Q o o' x y) (hnil : J [] [] x y)
    (hnext : ∀ {a b x' y'}, Q a b x' y' → x'.length < x.length → y'.length < y.length →
      Repeats p q (K x' y') x' y')
    (hcons : ∀ {a b as bs x' y' x'' y''}, ¬ p.Refuses x → ¬ q.Refuses y → Q a b x' y' →
      K x' y' as bs x'' y'' → x'' <:+ x' → J (a :: as) (b :: bs) x'' y'') :
    Repeats p q J x y := by
  intro n m o o' hn hm
  obtain ⟨n, rfl⟩ := Nat.exists_eq_succ_of_ne_zero
    (Nat.ne_zero_of_lt (Nat.lt_of_lt_of_le (List.length_pos_iff.mpr hx) hn))
  obtain ⟨m, rfl⟩ := Nat.exists_eq_succ_of_ne_zero
    (Nat.ne_zero_of_lt (Nat.lt_of_lt_of_le (List.length_pos_iff.mpr hy) hm))
  rcases h o o' with ⟨hp, hq⟩ | ⟨hs, ht, hp, hq, hQ⟩
  · exact .read (s := []) (t := []) (Nat.le_refl _) (Nat.le_refl _) (result_manyUpTo_stop hx hp)
      (result_manyUpTo_stop hy hq) hnil
  · next s t x' y' a b =>
    have hrefuses : ¬ p.Refuses (s ++ x') ∧ ¬ q.Refuses (t ++ y') := by
      refine ⟨fun hno => ?_, fun hno => ?_⟩
      · rw [hno o] at hp
        cases hp
      · rw [hno o'] at hq
        cases hq
    rw [List.length_append] at hn hm
    have hless : x'.length < (s ++ x').length := by
      rw [List.length_append]
      omega
    have hless' : y'.length < (t ++ y').length := by
      rw [List.length_append]
      omega
    rcases hnext hQ hless hless' n m (o + s.length) (o' + t.length) (by omega) (by omega) with
      ⟨hp', hq'⟩ | ⟨hs', ht', hp', hq', hJ⟩
    · refine .fail ?_ ?_
      · rw [result_manyUpTo_read hx hp, hp']
        rfl
      · rw [result_manyUpTo_read hy hq, hq']
        rfl
    · next s' t' x'' y'' as bs =>
      rw [← List.append_assoc, ← List.append_assoc]
      refine .read (Nat.zero_le _) (Nat.zero_le _) ?_ ?_
        (hcons hrefuses.1 hrefuses.2 hQ hJ (List.suffix_append _ _))
      · rw [List.append_assoc, result_manyUpTo_read hx hp, hp', List.length_append, Nat.add_assoc]
        rfl
      · rw [List.append_assoc, result_manyUpTo_read hy hq, hq', List.length_append, Nat.add_assoc]
        rfl

/-- Repetition, where what is left after each step is as it was in front of it. -/
theorem Tracks.repeats {J : List α → List β → List Char → List Char → Prop} (hp : Tracks 1 N p q Q)
    (hend : ∀ x y, N x y → (x = [] ↔ y = [])) (hnext : ∀ a b x y, Q a b x y → N x y)
    (hnil : ∀ x y, N x y → J [] [] x y)
    (hcons : ∀ {a b as bs x y x' y'}, Q a b x y → J as bs x' y' → x' <:+ x →
      J (a :: as) (b :: bs) x' y') {x y : List Char} (hxy : N x y) : Repeats p q J x y := by
  induction hk : x.length using Nat.strongRecOn generalizing x y with
  | ind k ih =>
  by_cases hx : x = []
  · exact repeats_none (.inl hx) (.inl ((hend x y hxy).mp hx)) (hnil _ _ hxy)
  · refine Repeats.step (K := fun _ _ => J) hx (mt (hend x y hxy).mpr hx) (hp hxy)
      (hnil x y hxy) (fun {a b x' y'} hQ hless _ => ?_) fun _ _ => hcons
    exact ih _ (hk ▸ hless) (hnext a b x' y' hQ) rfl

protected theorem Tracks.many {J : List α → List β → List Char → List Char → Prop} (hp : Tracks 1 N p q Q)
    (hend : ∀ x y, N x y → (x = [] ↔ y = [])) (hnext : ∀ a b x y, Q a b x y → N x y)
    (hnil : ∀ x y, N x y → J [] [] x y)
    (hcons : ∀ {a b as bs x y x' y'}, Q a b x y → J as bs x' y' → x' <:+ x →
      J (a :: as) (b :: bs) x' y') : Tracks 0 N (many p) (many q) J :=
  fun _ _ hxy => (hp.repeats hend hnext hnil hcons hxy).many

/-- One or more. -/
protected theorem Tracks.some1 {J : List α → List β → List Char → List Char → Prop}
    (hend : ∀ x y, N x y → (x = [] ↔ y = [])) (hp : Tracks n N p q Q)
    (hmany : ∀ a b, Tracks 0 (Q a b) (many p) (many q) fun as bs => J (a :: as) (b :: bs)) :
    Tracks n N (some1 p) (some1 q) J := by
  have hbind : Tracks n N (p >>= fun a => Matcher.many p >>= fun rest => Pure.pure (a :: rest))
      (q >>= fun b => Matcher.many q >>= fun rest => Pure.pure (b :: rest)) J :=
    hp.bind fun a b => (hmany a b).map fun _ _ _ _ h => h
  intro x y hxy o o'
  by_cases hx : x = []
  · have hy := (hend x y hxy).mp hx
    subst hx hy
    exact .fail rfl rfl
  have hsome {α : Type} (p : Matcher α) {x : List Char} (hx : x ≠ []) (o : Nat) :
      Matcher.some1 p ⟨o, x⟩ =
        (p >>= fun a => Matcher.many p >>= fun rest => Pure.pure (a :: rest)) ⟨o, x⟩ := by
    unfold Matcher.some1
    exact if_neg (by simpa using hx)
  have hy : y ≠ [] := mt (hend x y hxy).mpr hx
  rcases hbind hxy o o' with ⟨hp, hq⟩ | ⟨hs, ht, hp, hq, hJ⟩
  · exact .fail (by rw [hsome p hx, hp]) (by rw [hsome q hy, hq])
  · exact .read hs ht (by rw [hsome p hx, hp]) (by rw [hsome q hy, hq]) hJ

end Matcher

end Stencil.Source
