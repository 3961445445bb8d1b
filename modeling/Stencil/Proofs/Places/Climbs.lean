import Stencil.Proofs.Agreement.Takes
import Stencil.Proofs.Places.Lengths

/-!
# Matchers go forward

What a matcher yields was found on the way from where it started to where it ended, the earlier
parts of a value before the later ones. So if the spots that a value has are put down in the order
in which the matcher came across them, their offsets ascend.

The rules carry the spots so far along: a matcher *climbs* from the spots before it to those after
it if these ascend to its end whenever those before it ascend to its start. There is one rule for
every way that matchers are built; steps whose spots do not matter have to move forward only.

Offsets may be equal. Where something that was read takes a character at least, this is said by two
spots, one where it begins and one a character further on: all that follows is behind the second.
-/

namespace Stencil.Source

/-- An offset that is worth remembering. -/
structure Spot where
  offset : Nat
  /-- Whether a class or an id stands there in front of the attributes. -/
  short : Bool

/-- Something that takes a character at least begins at the offset. -/
def startSpots (offset : Nat) : List Spot :=
  [⟨offset, false⟩, ⟨offset + 1, false⟩]

/-- The offsets of spots never decrease, and none is behind `stop`. Classes and ids stand in front
of attributes only where that is possible. -/
structure Ascends (short : Prop) (spots : List Spot) (stop : Nat) : Prop where
  ordered : spots.Pairwise fun s t => s.offset ≤ t.offset
  offset_le : ∀ s ∈ spots, s.offset ≤ stop
  short_of : ∀ s ∈ spots, s.short = true → short

namespace Ascends

variable {short : Prop} {spots less : List Spot} {stop : Nat}

theorem nil (stop : Nat) : Ascends short [] stop :=
  ⟨.nil, List.forall_mem_nil _, List.forall_mem_nil _⟩

theorem sublist (h : Ascends short spots stop) (hless : List.Sublist less spots) :
    Ascends short less stop where
  ordered := h.ordered.sublist hless
  offset_le := fun s hs => h.offset_le s (hless.subset hs)
  short_of := fun s hs => h.short_of s (hless.subset hs)

theorem mono (h : Ascends short spots stop) {later : Nat} (hle : stop ≤ later) :
    Ascends short spots later where
  ordered := h.ordered
  offset_le := fun s hs => Nat.le_trans (h.offset_le s hs) hle
  short_of := h.short_of

/-- The last spot may be where the others stop. -/
theorem concat (h : Ascends short spots stop) {b : Bool} (hb : b = true → short) :
    Ascends short (spots ++ [⟨stop, b⟩]) stop where
  ordered := by
    refine List.pairwise_append.mpr ⟨h.ordered, List.pairwise_singleton _ _, ?_⟩
    intro s hs t ht
    rw [List.mem_singleton.mp ht]
    exact h.offset_le s hs
  offset_le := by
    refine List.forall_mem_append.mpr ⟨h.offset_le, ?_⟩
    exact List.forall_mem_singleton.mpr (Nat.le_refl stop)
  short_of := by
    refine List.forall_mem_append.mpr ⟨h.short_of, ?_⟩
    exact List.forall_mem_singleton.mpr hb

theorem start (h : Ascends short spots stop) {later : Nat} (hlt : stop < later) :
    Ascends short (spots ++ startSpots stop) later := by
  have hfirst : Ascends short (spots ++ [⟨stop, false⟩]) stop := h.concat (by simp)
  have hsecond := (hfirst.mono (Nat.le_succ stop)).concat (b := false) (by simp)
  rw [List.append_assoc] at hsecond
  exact hsecond.mono hlt

end Ascends

namespace Matcher

variable {α β : Type} {short : Prop} {p q : Matcher α} {pre : List Spot} {post : α → List Spot}

/-- The matcher does not end before its start. -/
def Moves (p : Matcher α) : Prop :=
  ∀ c, ∀ r ∈ (p c).result, c.offset ≤ r.2.offset

/-- The matcher reads a character at least. -/
def Advances (p : Matcher α) : Prop :=
  ∀ c, ∀ r ∈ (p c).result, c.offset < r.2.offset

/-- The matcher leads from ascending spots before its start to ascending spots before its end. -/
def Climbs (short : Prop) (p : Matcher α) (pre : List Spot) (post : α → List Spot) : Prop :=
  ∀ c, ∀ r ∈ (p c).result, Ascends short pre c.offset → Ascends short (post r.1) r.2.offset

/-- The spots of the value are what the matcher adds to those before it. -/
def Adds (short : Prop) (p : Matcher α) (spots : α → List Spot) : Prop :=
  ∀ pre, p.Climbs short pre fun a => pre ++ spots a

/-- Every cursor sits in some source, so what stays in every source moves forward. -/
theorem moves_of_stays {P : List Char → α → Prop} (h : ∀ source, p.Stays source (P source)) :
    p.Moves := by
  intro c r hr
  have hc : c.Sits (List.replicate c.offset ' ' ++ c.rest) := by
    constructor
    · simp
    · simp
  exact ((h _ hc).1 r hr).2.offset_le

namespace Advances

protected theorem bind {f : α → Matcher β} (hp : p.Advances) (hf : ∀ a, (f a).Moves) :
    (p >>= f).Advances := by
  intro c r hr
  rw [result_bind] at hr
  obtain ⟨⟨a, c'⟩, hpc, hfc⟩ := Option.bind_eq_some_iff.mp hr
  exact Nat.lt_of_lt_of_le (hp c (a, c') hpc) (hf a c' r hfc)

protected theorem named (rule : Rule) (h : p.Advances) : (named rule p).Advances := by
  intro c r hr
  rw [result_named] at hr
  exact h c r hr

protected theorem scan {scanner : List Char → Option Nat} (h : NeverEmpty scanner) :
    (scan scanner).Advances := by
  intro c r hr
  rw [result_scan] at hr
  obtain ⟨n, hn, rfl⟩ := Option.map_eq_some_iff.mp hr
  exact Nat.lt_add_of_pos_right (h c.rest n hn)

theorem token {rule : Rule} {scanner : List Char → Option Nat} (h : NeverEmpty scanner) :
    (token rule scanner).Advances :=
  (Advances.scan h).named rule

end Advances

namespace Climbs

protected theorem pure {a : α} (h : List.Sublist (post a) pre) :
    Climbs short (Pure.pure a) pre post := by
  intro c r hr hpre
  cases hr
  exact hpre.sublist h

protected theorem bind {mid : α → List Spot} {f : α → Matcher β} {post : β → List Spot}
    (hp : p.Climbs short pre mid) (hf : ∀ a, (f a).Climbs short (mid a) post) :
    (p >>= f).Climbs short pre post := by
  intro c r hr hpre
  rw [result_bind] at hr
  obtain ⟨⟨a, c'⟩, hpc, hfc⟩ := Option.bind_eq_some_iff.mp hr
  exact hf a c' r hfc (hp c (a, c') hpc hpre)

/-- A step that adds no spot. -/
theorem after {f : α → Matcher β} {post : β → List Spot} (hp : p.Moves)
    (hf : ∀ a, (f a).Climbs short pre post) : (p >>= f).Climbs short pre post := by
  have hmid : p.Climbs short pre fun _ => pre :=
    fun c r hr hpre => hpre.mono (hp c r hr)
  exact hmid.bind hf

protected theorem fail : Climbs short (Matcher.fail : Matcher α) pre post :=
  fun _ _ hr => nomatch hr

protected theorem orElse (hp : p.Climbs short pre post) (hq : q.Climbs short pre post) :
    (orElse p q).Climbs short pre post := by
  intro c r hr
  rw [result_orElse] at hr
  rcases Option.or_eq_some_iff.mp hr with hpc | ⟨-, hqc⟩
  · exact hp c r hpc
  · exact hq c r hqc

protected theorem firstOf {choices : List (Matcher α)}
    (h : ∀ p ∈ choices, p.Climbs short pre post) :
    (firstOf choices).Climbs short pre post := by
  induction choices with
  | nil => exact Climbs.fail
  | cons p rest ih =>
    obtain ⟨hp, hrest⟩ := List.forall_mem_cons.mp h
    exact hp.orElse (ih hrest)

protected theorem named (rule : Rule) (h : p.Climbs short pre post) :
    (named rule p).Climbs short pre post := by
  intro c r hr
  rw [result_named] at hr
  exact h c r hr

/-- The spot where a scanner starts. -/
protected theorem scan {scanner : List Char → Option Nat} {b : Bool} (hb : b = true → short) :
    (scan scanner).Climbs short pre fun l => pre ++ [⟨l.offset, b⟩] := by
  intro c r hr hpre
  rw [result_scan] at hr
  obtain ⟨n, -, rfl⟩ := Option.map_eq_some_iff.mp hr
  exact (hpre.concat hb).mono (Nat.le_add_right c.offset n)

theorem token {rule : Rule} {scanner : List Char → Option Nat} :
    (token rule scanner).Climbs short pre fun l => pre ++ [⟨l.offset, false⟩] :=
  (Climbs.scan (by simp)).named rule

/-- The offset where a step begins that reads something. -/
theorem start {f : Nat → β → Matcher α} {q : Matcher β} (hq : q.Advances)
    (hf : ∀ offset b, (f offset b).Climbs short (pre ++ startSpots offset) post) :
    (Matcher.offset >>= fun offset => q >>= f offset).Climbs short pre post := by
  intro c r hr hpre
  rw [result_bind] at hr
  obtain ⟨⟨offset, c'⟩, hoffset, hr⟩ := Option.bind_eq_some_iff.mp hr
  cases hoffset
  rw [result_bind] at hr
  obtain ⟨⟨b, d⟩, hqc, hfd⟩ := Option.bind_eq_some_iff.mp hr
  exact hf c.offset b d r hfd (hpre.start (hq c (b, d) hqc))

/-- The offset where a token begins that is never empty. -/
theorem startToken {rule : Rule} {scanner : List Char → Option Nat} (h : NeverEmpty scanner) :
    (Matcher.token rule scanner).Climbs short pre fun l => pre ++ startSpots l.offset := by
  have hscan : (scan scanner).Climbs short pre fun l => pre ++ startSpots l.offset := by
    intro c r hr hpre
    have hlt := Advances.scan h c r hr
    rw [result_scan] at hr
    obtain ⟨n, -, rfl⟩ := Option.map_eq_some_iff.mp hr
    exact hpre.start hlt
  exact hscan.named rule

protected theorem lexeme (h : p.Moves) :
    (lexeme p).Climbs short pre fun l => pre ++ [⟨l.offset, false⟩] := by
  intro c r hr hpre
  unfold lexeme at hr
  rcases hpc : p c with ⟨_ | ⟨a, c'⟩, furthest⟩ <;> rw [hpc] at hr <;> cases hr
  have hle : c.offset ≤ c'.offset := h c (a, c') (by rw [hpc]; rfl)
  have hconcat : Ascends short (pre ++ [⟨c.offset, false⟩]) c.offset := hpre.concat (by simp)
  exact hconcat.mono hle

protected theorem optional {post : Option α → List Spot}
    (h : p.Climbs short pre fun a => post (some a))
    (hnone : List.Sublist (post none) pre) : (optional p).Climbs short pre post := by
  intro c r hr hpre
  rw [result_optional] at hr
  split at hr
  · cases hr
    exact hpre.sublist hnone
  · rcases hpc : (p c).result with _ | ⟨a, c'⟩ <;> rw [hpc] at hr <;> cases hr
    · exact hpre.sublist hnone
    · exact h c (a, c') hpc hpre

end Climbs

namespace Adds

variable {spots : α → List Spot}

protected theorem optional (h : p.Adds short spots) :
    (optional p).Adds short fun o => (o.map spots).getD [] :=
  fun pre => (h pre).optional (by simp)

theorem manyUpTo (h : p.Adds short spots) (n : Nat) :
    (manyUpTo p n).Adds short fun l => l.flatMap spots := by
  induction n with
  | zero =>
    intro pre
    exact Climbs.pure (by simp)
  | succ n ih =>
    intro pre
    refine (h.optional pre).bind fun o => ?_
    cases o with
    | none => exact Climbs.pure (by simp)
    | some a =>
      refine (ih (pre ++ spots a)).bind fun rest => ?_
      exact Climbs.pure (by simp)

protected theorem many (h : p.Adds short spots) :
    (many p).Adds short fun l => l.flatMap spots :=
  fun pre c => h.manyUpTo c.rest.length pre c

end Adds

end Matcher

end Stencil.Source
