import Stencil.Proofs.Grammar.LoopHeads
import Stencil.Proofs.Layout.Idle
import Stencil.Proofs.Layout.Tracks

/-!
# White space in front of a closing brace

Two sources are compared that differ at one place only: in the second, white space stands in front
of a closing brace behind which there is nothing but white space and maybe another brace (`Seam`).
As long as matchers have not come there, what is left of the sources is near in this sense, and
behind that it is the same. In between is the one place where the matchers do not keep step: the
white space is still there for the second only. What has gone over white space is past it
(`Seam.Settled`).
-/

namespace Stencil.Source

open Text Matcher

/-- White space, and what stands behind the brace that it is put in front of. -/
structure Seam where
  gap : List Char
  idle : List Char
  isGap_gap : IsGap gap
  isIdle_idle : IsIdle idle
  /-- At most one more brace follows. -/
  count_le : idle.count '}' ≤ 1

/-- The text ends like a comment or like a fragment. -/
def EndsHidden (u : List Char) : Prop :=
  "-->".toList <:+ u ∨ "</>".toList <:+ u

instance (u : List Char) : Decidable (EndsHidden u) :=
  inferInstanceAs (Decidable (_ ∨ _))

namespace Seam

variable (m : Seam)

/-- The brace and what stands behind it. -/
def tail : List Char :=
  '}' :: m.idle

/-- If there is white space, what stands in front of it does not end like a comment or like a
fragment. -/
def Allows (u : List Char) : Prop :=
  m.gap = [] ∨ ¬ EndsHidden u

/-- The texts differ in the white space in front of the brace, or they are the same and come behind
it. -/
def Near (x y : List Char) : Prop :=
  (∃ u, m.Allows u ∧ x = u ++ m.tail ∧ y = u ++ (m.gap ++ m.tail)) ∨ (x = y ∧ x <:+ m.tail)

/-- The texts are near, and the second does not begin with the white space. -/
def Settled (x y : List Char) : Prop :=
  (∃ u, u ≠ [] ∧ m.Allows u ∧ x = u ++ m.tail ∧ y = u ++ (m.gap ++ m.tail)) ∨
    (x = y ∧ x <:+ m.tail)

variable {m} {x y : List Char}

theorem isIdle_tail : IsIdle m.tail :=
  List.forall_mem_cons.mpr ⟨rfl, m.isIdle_idle⟩

theorem isIdle_gap_tail : IsIdle (m.gap ++ m.tail) :=
  m.isGap_gap.isIdle.append isIdle_tail

theorem spaces_tail : spaces m.tail = 0 := rfl

theorem spaces_gap_tail : spaces (m.gap ++ m.tail) = m.gap.length :=
  run_append m.isGap_gap rfl

theorem Allows.of_suffix {u v : List Char} (h : m.Allows u) (hv : v <:+ u) : m.Allows v :=
  h.imp_right fun hu hhidden => hu (hhidden.imp (·.trans hv) (·.trans hv))

theorem Settled.near (h : m.Settled x y) : m.Near x y := by
  rcases h with ⟨u, -, hu, hx, hy⟩ | h
  · exact .inl ⟨u, hu, hx, hy⟩
  · exact .inr h

/-- Texts that are near are settled, but where the white space begins. -/
theorem Near.settled (h : m.Near x y) : m.Settled x y ∨
    (m.gap ≠ [] ∧ x = m.tail ∧ y = m.gap ++ m.tail) := by
  rcases h with ⟨u, hu, rfl, rfl⟩ | h
  · by_cases hnil : u = []
    · subst hnil
      by_cases hgap : m.gap = []
      · exact .inl (.inr ⟨by simp [hgap], List.suffix_refl _⟩)
      · exact .inr ⟨hgap, rfl, rfl⟩
    · exact .inl (.inl ⟨u, hnil, hu, rfl, rfl⟩)
  · exact .inl (.inr h)

theorem Near.nil_iff (h : m.Near x y) : x = [] ↔ y = [] := by
  rcases h with ⟨u, -, rfl, rfl⟩ | ⟨rfl, -⟩
  · simp [tail]
  · rfl

theorem Near.isIdle (h : m.Near x y) (hx : IsIdle x) : IsIdle y := by
  rcases h with ⟨u, -, rfl, rfl⟩ | ⟨rfl, -⟩
  · exact IsIdle.append (fun c hc => hx c (List.mem_append_left _ hc)) isIdle_gap_tail
  · exact hx

end Seam

namespace Matcher

variable {α β γ δ : Type}

/-- The matcher fails on all idle texts. -/
def Shuns (p : Matcher α) : Prop :=
  ∀ v, IsIdle v → p.Refuses v

theorem Shuns.bind {p : Matcher α} {f : α → Matcher β} (h : p.Shuns) : (p >>= f).Shuns :=
  fun v hv => (h v hv).bind

/-- What is read first leaves an idle text of an idle text. -/
theorem Shuns.after {p : Matcher α} {f : α → Matcher β} (hp : p.Accounts fun _ _ _ => True)
    (hf : ∀ a, (f a).Shuns) : (p >>= f).Shuns := by
  intro v hv o
  rw [result_bind]
  rcases hr : (p ⟨o, v⟩).result with _ | ⟨a, c⟩
  · rfl
  · obtain ⟨s, -, hrest, -⟩ := hp hr
    exact hf a c.rest (hv.of_suffix ⟨s, hrest.symm⟩) c.offset

theorem Shuns.named {p : Matcher α} (rule : Rule) (h : p.Shuns) : (named rule p).Shuns :=
  fun v hv => (h v hv).named rule

theorem Shuns.orElse {p q : Matcher α} (hp : p.Shuns) (hq : q.Shuns) : (orElse p q).Shuns :=
  fun v hv => (hp v hv).both (hq v hv)

theorem Shuns.firstOf {choices : List (Matcher α)} (h : ∀ p ∈ choices, p.Shuns) :
    (firstOf choices).Shuns :=
  fun v hv => Refuses.all fun p hp => h p hp v hv

theorem Shuns.offset {f : Nat → Matcher β} (h : ∀ o, (f o).Shuns) :
    (Matcher.offset >>= f).Shuns :=
  fun v hv => Refuses.offset fun o => h o v hv

/-- A scanner that takes nothing of the empty text takes nothing of an idle one. -/
theorem shuns_scan {scanner : Scanner} (h : IgnoresIdle scanner) (hnil : scanner [] = none) :
    (scan scanner).Shuns :=
  fun v hv => Refuses.scan ((h [] v hv).trans hnil)

theorem shuns_literal {c : Char} {word : List Char} (hword : IsBusy (c :: word)) :
    (scan (literal (c :: word))).Shuns :=
  shuns_scan (literal_ignores hword) rfl

theorem shuns_keyword {c : Char} {word : List Char} (hword : IsBusy (c :: word)) :
    (scan (keyword (c :: word))).Shuns :=
  shuns_scan (keyword_ignores hword) rfl

end Matcher

namespace Seam

variable {m : Seam} {α β γ δ : Type} {n : Nat} {x y : List Char}

variable (m) in
/-- The texts are near, and the values are related if not all that is left is idle. -/
def Agrees (E : α → β → Prop) (a : α) (b : β) (x y : List Char) : Prop :=
  m.Near x y ∧ (IsIdle x ∨ E a b)

theorem Agrees.mono {E E' : α → β → Prop} (hE : ∀ a b, E a b → E' a b) {a : α} {b : β}
    (h : m.Agrees E a b x y) : m.Agrees E' a b x y :=
  ⟨h.1, h.2.imp_right (hE a b)⟩

/-! ## Rules -/

section

variable {N : List Char → List Char → Prop} {p : Matcher α} {q : Matcher β}
  {Q : α → β → List Char → List Char → Prop} {f : α → Matcher γ} {g : β → Matcher δ}
  {R : γ → δ → List Char → List Char → Prop}

/-- A matcher that fails on idle texts need not care for the place where the white space begins. -/
theorem tracks_of_settled (h : Tracks n m.Settled p q Q) (hp : p.Shuns) (hq : q.Shuns) :
    Tracks n m.Near p q Q := by
  intro x y hxy o o'
  rcases hxy.settled with hsettled | ⟨-, rfl, rfl⟩
  · exact h hsettled o o'
  · exact .fail (hp _ isIdle_tail o) (hq _ isIdle_gap_tail o')

/-- What fails on idle texts may take the values to be related. -/
theorem tracks_of_agrees {E : α → β → Prop} {a : α} {b : β} {p : Matcher γ} {q : Matcher δ}
    (h : E a b → Tracks 0 m.Near p q R) (hp : p.Shuns) (hq : q.Shuns) :
    Tracks 0 (m.Agrees E a b) p q R := by
  intro x y ⟨hnear, hvalues⟩ o o'
  rcases hvalues with hidle | hE
  · exact .fail (hp x hidle o) (hq y (hnear.isIdle hidle) o')
  · exact h hE hnear o o'

/-- What comes next fails on idle texts, so the values are related. -/
theorem tracks_agrees {E : α → β → Prop} (hp : Tracks n N p q (m.Agrees E))
    (hf : ∀ a b, E a b → Tracks 0 m.Near (f a) (g b) R) (hshuns : ∀ a, (f a).Shuns)
    (hshuns' : ∀ b, (g b).Shuns) : Tracks n N (p >>= f) (q >>= g) R :=
  hp.bind fun a b => tracks_of_agrees (hf a b) (hshuns a) (hshuns' b)

end

/-! ### Scanners -/

theorem abreast_scan {scanner scanner' : Scanner} {s t x y : List Char} {o o' : Nat}
    {Q : Lexeme → Lexeme → List Char → List Char → Prop} (hs : scanner (s ++ x) = some s.length)
    (ht : scanner' (t ++ y) = some t.length) (hn : n ≤ s.length) (hn' : n ≤ t.length)
    (hQ : Q ⟨o, s⟩ ⟨o', t⟩ x y) : Abreast n (scan scanner) (scan scanner') Q o o' (s ++ x) (t ++ y) := by
  have hscan {scanner : Scanner} {s x : List Char} (h : scanner (s ++ x) = some s.length) (o : Nat) :
      (scan scanner ⟨o, s ++ x⟩).result = some (⟨o, s⟩, ⟨o + s.length, x⟩) := by
    rw [result_scan]
    simp [h]
  exact .read hn hn' (hscan hs o) (hscan ht o') hQ

theorem exists_split {k : Nat} {u : List Char} (h : k ≤ u.length) :
    ∃ s v, u = s ++ v ∧ s.length = k :=
  ⟨u.take k, u.drop k, (List.take_append_drop k u).symm, List.length_take_of_le h⟩

/-- A scanner that ignores idle texts takes the same of texts that are near. If what it has taken
ends like a comment or like a fragment, the white space does not follow. -/
theorem tracks_scan {scanner : Scanner} (hidle : IgnoresIdle scanner) (hfits : Fits scanner)
    (hread : ∀ {text k}, scanner text = some k → n ≤ k) :
    Tracks n m.Near (scan scanner) (scan scanner) fun l l' x y =>
      l.chars = l'.chars ∧ scanner (l.chars ++ x) = some l.chars.length ∧ m.Near x y ∧
        (EndsHidden l.chars → m.Settled x y) := by
  intro x y hxy o o'
  rcases hxy with ⟨u, hu, rfl, rfl⟩ | ⟨rfl, hx⟩
  · have htail := hidle u m.tail isIdle_tail
    have hgap := hidle u _ (isIdle_gap_tail (m := m))
    cases hk : scanner u with
    | none =>
      rw [hk] at htail hgap
      exact .fail (Refuses.scan htail o) (Refuses.scan hgap o')
    | some k =>
      obtain ⟨s, v, rfl, rfl⟩ := exists_split (hfits u k hk)
      rw [hk, List.append_assoc] at htail hgap
      rw [List.append_assoc, List.append_assoc]
      have hv := hu.of_suffix (List.suffix_append s v)
      refine abreast_scan htail hgap (hread hk) (hread hk) ⟨rfl, htail, .inl ⟨v, hv, rfl, rfl⟩, ?_⟩
      intro hhidden
      rcases hu with hgap | hu
      · exact (Near.settled (.inl ⟨v, hv, rfl, rfl⟩)).resolve_right fun h => h.1 hgap
      · refine .inl ⟨v, ?_, hv, rfl, rfl⟩
        rintro rfl
        rw [List.append_nil] at hu
        exact hu hhidden
  · cases hk : scanner x with
    | none => exact .fail (Refuses.scan hk o) (Refuses.scan hk o')
    | some k =>
      obtain ⟨s, v, rfl, rfl⟩ := exists_split (hfits x k hk)
      have hv : v <:+ m.tail := (List.suffix_append s v).trans hx
      exact abreast_scan hk hk (hread hk) (hread hk)
        ⟨rfl, hk, .inr ⟨rfl, hv⟩, fun _ => .inr ⟨rfl, hv⟩⟩

/-- What is taken by a scanner that goes on over white space: the same, or the white space in front
of the brace as well. -/
def Stretched (m : Seam) (s t x y : List Char) : Prop :=
  s = t ∨ (x = m.tail ∧ y = m.tail ∧ t = s ++ m.gap)

/-- Such a scanner leaves texts that are settled. -/
theorem exists_spanned {length : List Char → Nat} (hspans : Spans length)
    (hle : ∀ text, length text ≤ text.length) (h : m.Near x y) :
    ∃ s t x' y', x = s ++ x' ∧ y = t ++ y' ∧ length x = s.length ∧ length y = t.length ∧
      m.Settled x' y' ∧ m.Stretched s t x' y' ∧ (m.Settled x y → (s = [] ↔ t = [])) := by
  rcases h with ⟨u, hu, rfl, rfl⟩ | ⟨rfl, hx⟩
  · have htail := hspans u m.tail isIdle_tail
    have hgap := hspans u _ (isIdle_gap_tail (m := m))
    rw [spaces_tail] at htail
    rw [spaces_gap_tail] at hgap
    rcases Nat.lt_or_eq_of_le (hle u) with hlt | heq
    · obtain ⟨s, v, hv, hs⟩ := exists_split (hle u)
      rw [if_neg (Nat.ne_of_lt hlt), ← hs] at htail hgap
      subst hv
      refine ⟨s, s, v ++ m.tail, v ++ (m.gap ++ m.tail), by simp, by simp, htail, hgap,
        .inl ⟨v, ?_, hu.of_suffix (List.suffix_append s v), rfl, rfl⟩, .inl rfl, fun _ => Iff.rfl⟩
      rintro rfl
      rw [List.append_nil] at hlt hs
      omega
    · rw [if_pos heq] at htail hgap
      refine ⟨u, u ++ m.gap, m.tail, m.tail, rfl, by simp, htail, by rw [hgap, List.length_append],
        .inr ⟨rfl, List.suffix_refl _⟩, .inr ⟨rfl, rfl, rfl⟩, fun hsettled => ?_⟩
      rcases hsettled with ⟨v, hv, -, hx, -⟩ | ⟨hxy, -⟩
      · rw [List.append_cancel_right hx]
        simp [hv]
      · rw [← List.append_assoc] at hxy
        have hnil : u = u ++ m.gap := List.append_cancel_right hxy
        rw [← hnil]
  · obtain ⟨s, v, hv, hs⟩ := exists_split (hle x)
    exact ⟨s, s, v, v, hv, hv, hs.symm, hs.symm, .inr ⟨rfl, (hv ▸ List.suffix_append s v).trans hx⟩,
      .inl rfl, fun _ => Iff.rfl⟩

/-- White space may be skipped. -/
theorem tracks_spaces : Tracks 0 m.Near (scan fun text => some (spaces text))
    (scan fun text => some (spaces text)) fun _ _ => m.Settled := by
  intro x y hxy o o'
  obtain ⟨s, t, x', y', rfl, rfl, hs, ht, hsettled, -, -⟩ :=
    exists_spanned spans_spaces spaces_le hxy
  exact abreast_scan (congrArg some hs) (congrArg some ht) (Nat.zero_le _) (Nat.zero_le _) hsettled

/-- A run that is not empty, of characters that go on over white space. -/
theorem tracks_span {scanner : Scanner} (hspan : IsSpan scanner) :
    Tracks 1 m.Settled (scan scanner) (scan scanner) fun l l' x y =>
      m.Settled x y ∧ m.Stretched l.chars l'.chars x y := by
  obtain ⟨length, hspans, hle, hscanner⟩ := hspan
  intro x y hxy o o'
  obtain ⟨s, t, x', y', rfl, rfl, hs, ht, hsettled, hsame, hempty⟩ :=
    exists_spanned hspans hle hxy.near
  by_cases hnil : s = []
  · have hnil' := (hempty hxy).mp hnil
    refine .fail (Refuses.scan ?_ o) (Refuses.scan ?_ o')
    · rw [hscanner, hs, hnil]
      rfl
    · rw [hscanner, ht, hnil']
      rfl
  · have hlength := List.length_pos_iff.mpr hnil
    have hlength' := List.length_pos_iff.mpr (mt (hempty hxy).mpr hnil)
    refine abreast_scan ?_ ?_ hlength hlength' ⟨hsettled, hsame⟩
    · rw [hscanner, hs, if_neg (Nat.ne_of_gt hlength)]
    · rw [hscanner, ht, if_neg (Nat.ne_of_gt hlength')]

/-- A brace begins no such run, and white space is one. -/
theorem span_tail {scanner : Scanner} (hspan : IsSpan scanner) :
    scanner m.tail = none ∧ (m.gap ≠ [] → scanner (m.gap ++ m.tail) = some m.gap.length) := by
  obtain ⟨length, hspans, hle, hscanner⟩ := hspan
  have hidle {v : List Char} (hv : IsIdle v) : length v = spaces v := by
    have hnil : length [] = ([] : List Char).length := Nat.le_zero.mp (hle [])
    have hv := hspans [] v hv
    rw [if_pos hnil, List.nil_append] at hv
    rw [hv, List.length_nil, Nat.zero_add]
  refine ⟨?_, fun hgap => ?_⟩
  · rw [hscanner, hidle isIdle_tail, spaces_tail]
    rfl
  · have hlength := List.length_pos_iff.mpr hgap
    rw [hscanner, hidle isIdle_gap_tail, spaces_gap_tail, if_neg (Nat.ne_of_gt hlength)]

/-- A closing brace may be the one that the white space stands in front of. -/
theorem tracks_brace : Tracks 1 m.Settled (scan (literal ['}'])) (scan (literal ['}']))
    fun _ _ => m.Near := by
  have hread (o o' : Nat) {x y : List Char} (h : m.Near x y) :
      Abreast 1 (scan (literal ['}'])) (scan (literal ['}'])) (fun _ _ => m.Near) o o'
        ('}' :: x) ('}' :: y) :=
    abreast_scan (s := ['}']) (t := ['}']) (literal_append _ _) (literal_append _ _)
      (Nat.le_refl _) (Nat.le_refl _) h
  have hfail (o o' : Nat) {c : Char} (hc : '}' ≠ c) (x y : List Char) :
      Abreast 1 (scan (literal ['}'])) (scan (literal ['}'])) (fun _ _ => m.Near) o o'
        (c :: x) (c :: y) :=
    .fail (Refuses.scan (literal_ne hc _ _) o) (Refuses.scan (literal_ne hc _ _) o')
  intro x y hxy o o'
  rcases hxy with ⟨u, hne, hu, rfl, rfl⟩ | ⟨rfl, hx⟩
  · obtain ⟨c, u, rfl⟩ := List.exists_cons_of_ne_nil hne
    by_cases hc : '}' = c
    · subst hc
      exact hread o o' (.inl ⟨u, hu.of_suffix (List.suffix_cons _ _), rfl, rfl⟩)
    · exact hfail o o' hc _ _
  · rcases x with _ | ⟨c, x⟩
    · exact .fail rfl rfl
    · by_cases hc : '}' = c
      · subst hc
        exact hread o o' (.inr ⟨rfl, (List.suffix_cons _ _).trans hx⟩)
      · exact hfail o o' hc _ _

theorem tracks_endOfInput : Tracks 0 (fun x y => x = [] ↔ y = []) endOfInput endOfInput
    fun _ _ x y => x = [] ∧ y = [] := by
  refine Tracks.named _ fun x y hxy o o' => ?_
  by_cases hx : x = []
  · have hy := hxy.mp hx
    subst hx hy
    exact abreast_scan (s := []) (t := []) (by rfl) (by rfl) (Nat.le_refl _) (Nat.le_refl _)
      ⟨rfl, rfl⟩
  · have hy := mt hxy.mpr hx
    exact .fail (Refuses.scan (by simp [hx]) o) (Refuses.scan (by simp [hy]) o')

/-! ### Lexemes -/

theorem eq_of_near {s t v : List Char} (h : m.Near (s ++ (v ++ m.tail)) (t ++ (v ++ (m.gap ++ m.tail)))) :
    s = t := by
  rcases h with ⟨u, -, hs, ht⟩ | ⟨heq, hs⟩
  · rw [← List.append_assoc] at hs ht
    rw [List.append_left_inj] at hs ht
    rw [← hs, List.append_left_inj] at ht
    exact ht.symm
  · have hlength := hs.length_le
    have hlength' := congrArg List.length heq
    simp only [List.length_append] at hlength hlength'
    rw [List.length_eq_zero_iff.mp (show s.length = 0 by omega),
      List.length_eq_zero_iff.mp (show t.length = 0 by omega)]

/-- What is read between texts that are near is the same, unless all that is left is idle. -/
theorem chars_of_near {s t : List Char} (h : m.Near (s ++ x) (t ++ y)) (hxy : m.Near x y) :
    IsIdle x ∨ s = t := by
  rcases hxy with ⟨v, -, rfl, rfl⟩ | ⟨rfl, hx⟩
  · exact .inr (eq_of_near h)
  · exact .inl (isIdle_tail.of_suffix hx)

theorem tracks_lexeme {N : List Char → List Char → Prop} {p : Matcher α} {q : Matcher β}
    (hN : ∀ x y, N x y → m.Near x y) (h : Tracks n N p q fun _ _ => m.Near) :
    Tracks n N (lexeme p) (lexeme q) (m.Agrees fun l l' => l.chars = l'.chars) :=
  h.lexeme.mono fun _ _ _ _ ⟨hnear, _, _, hxy⟩ => ⟨hxy, chars_of_near (hN _ _ hnear) hxy⟩

/-! ### Repetition -/

/-- What is repeated goes on over white space: where the white space begins, the second matcher
takes it once, and then both stop at the brace. -/
structure Absorbs (m : Seam) (p : Matcher α) (q : Matcher β) (P : β → Prop) : Prop where
  refuses : p.Refuses m.tail
  refuses' : q.Refuses m.tail
  takes : m.gap ≠ [] → q.Takes m.gap m.tail P

/-- A repetition that goes on over white space gets past it. How it ends may depend on where it
began. -/
theorem repeats_absorbing {p : Matcher α} {q : Matcher β}
    {Q : α → β → List Char → List Char → Prop} {P : β → Prop} {k l : Nat}
    {J : List Char → List Char → List α → List β → List Char → List Char → Prop}
    (hp : Tracks 1 (Within m.Settled k l) p q Q) (hnear : ∀ a b x y, Q a b x y → m.Near x y)
    (habsorbs : m.Absorbs p q P) (hnil : ∀ x y, m.Settled x y → J x y [] [] x y)
    (hblank : ∀ b, m.gap ≠ [] → P b → J m.tail (m.gap ++ m.tail) [] [b] m.tail m.tail)
    (hcons : ∀ {a b as bs x y x' y' x'' y''}, x ≠ m.tail → y ≠ m.tail → Q a b x' y' →
      J x' y' as bs x'' y'' → x'' <:+ x' → J x y (a :: as) (b :: bs) x'' y'') {x y : List Char}
    (hxy : Within m.Near k l x y) : Repeats p q (J x y) x y := by
  induction hi : x.length using Nat.strongRecOn generalizing x y with
  | ind i ih =>
  obtain ⟨hxy, hk, hl⟩ := hxy
  rcases hxy.settled with hsettled | ⟨hgap, rfl, rfl⟩
  · by_cases hx : x = []
    · have hy := hxy.nil_iff.mp hx
      exact repeats_none (.inl hx) (.inl hy) (hnil _ _ hsettled)
    · refine Repeats.step (K := J) hx (mt hxy.nil_iff.mpr hx) (hp ⟨hsettled, hk, hl⟩)
        (hnil x y hsettled) (fun {a b x' y'} hQ hless hless' => ?_) fun hx hy => hcons ?_ ?_
      · exact ih _ (hi ▸ hless) ⟨hnear a b x' y' hQ, by omega, by omega⟩ rfl
      · rintro rfl
        exact hx habsorbs.refuses
      · rintro rfl
        exact hy habsorbs.refuses'
  · have hend : Repeats p q (fun as bs x y => as = [] ∧ bs = [] ∧ x = m.tail ∧ y = m.tail)
        m.tail m.tail :=
      repeats_none (.inr habsorbs.refuses) (.inr habsorbs.refuses') ⟨rfl, rfl, rfl, rfl⟩
    refine (hend.ahead hgap (habsorbs.takes hgap)).mono ?_
    rintro _ _ _ _ ⟨b, rest, rfl, hb, rfl, rfl, rfl, rfl⟩
    exact hblank b hgap hb

end Seam

end Stencil.Source
