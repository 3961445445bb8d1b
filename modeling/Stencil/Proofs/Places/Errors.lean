import Stencil.Proofs.Places.Surface
import Stencil.Source.Read

/-!
# Errors are about the source

Reading a template ends with a value or with an error that is about an offset of the source. `Lands`
says so of a step that may fail, together with what is known of its value; there is one rule for
every way that the steps of reading are combined.
-/

namespace Stencil

/-- The error is about an offset of the source: that is its place, and if the grammar failed, the
error says what is found there. -/
structure SourceError.IsAbout (source : List Char) (offset : Nat) (e : SourceError) : Prop where
  place_eq : e.place = some (Location.ofOffset source offset)
  found_eq : ∀ rule found dialect, e.cause = .unexpected rule found dialect →
    found = Found.ofRest (source.drop offset)

namespace Source

variable {α β : Type} {source : List Char} {P : α → Prop} {Q : β → Prop}

/-- The step comes to a value as described, or to an error that is about an offset of the source. -/
def Lands (source : List Char) (r : Except SourceError α) (P : α → Prop) : Prop :=
  (∀ a, r = .ok a → P a) ∧
    ∀ e, r = .error e → ∃ offset ≤ source.length, e.IsAbout source offset

namespace Lands

theorem ok {a : α} (h : P a) : Lands source (.ok a) P :=
  ⟨fun _ hb => Except.ok.inj hb ▸ h, nofun⟩

/-- An error other than a failure of the grammar is about the place that it names. -/
theorem error {cause : SourceCause} {offset : Nat} (hle : offset ≤ source.length)
    (hcause : ∀ rule found dialect, cause ≠ .unexpected rule found dialect) :
    Lands source (.error ⟨cause, locate source offset⟩) P := by
  refine ⟨nofun, fun e he => ?_⟩
  cases he
  exact ⟨offset, hle, rfl, fun rule found dialect h => absurd h (hcause rule found dialect)⟩

protected theorem bind {r : Except SourceError α} {f : α → Except SourceError β}
    (hr : Lands source r P) (hf : ∀ a, P a → Lands source (f a) Q) :
    Lands source (r >>= f) Q := by
  cases r with
  | ok a => exact hf a (hr.1 a rfl)
  | error e => exact ⟨nofun, fun e' he => hr.2 e' (congrArg Except.error (Except.error.inj he))⟩

theorem mapM {f : α → Except SourceError β} {items : List α}
    (h : ∀ a ∈ items, Lands source (f a) Q) :
    Lands source (items.mapM f) fun results => ∀ b ∈ results, Q b := by
  induction items with
  | nil =>
    rw [List.mapM_nil]
    exact ok (List.forall_mem_nil _)
  | cons a rest ih =>
    rw [List.mapM_cons]
    obtain ⟨ha, hrest⟩ := List.forall_mem_cons.mp h
    refine ha.bind fun b hb => (ih hrest).bind fun more hmore => ?_
    exact ok (List.forall_mem_cons.mpr ⟨hb, hmore⟩)

/-- What every step of a fold keeps, the fold keeps. -/
theorem foldlM {f : β → α → Except SourceError β} {items : List α}
    (h : ∀ a ∈ items, ∀ acc, Q acc → Lands source (f acc a) Q) {start : β} (hstart : Q start) :
    Lands source (items.foldlM f start) Q := by
  induction items generalizing start with
  | nil =>
    rw [List.foldlM_nil]
    exact ok hstart
  | cons a rest ih =>
    rw [List.foldlM_cons]
    obtain ⟨ha, hrest⟩ := List.forall_mem_cons.mp h
    exact (ha start hstart).bind fun acc hacc => ih hrest hacc

end Lands

/-! ## Recognition -/

/-- A grammar as a whole is a rule, so a source that it refuses has a failure to report. -/
theorem furthest_named {p : Matcher α} {rule : Rule} {c : Cursor}
    (h : (Matcher.named rule p c).result = none) : (Matcher.named rule p c).furthest.isSome := by
  unfold Matcher.named at h ⊢
  rcases hpc : p c with ⟨_ | ⟨a, c'⟩, furthest⟩ <;> rw [hpc] at h
  · dsimp only
    unfold laterFailure
    split
    · split <;> rfl
    · rfl
    · rfl
  · cases h

theorem stays_grammar (dialect : Dialect) (depth : Nat) :
    (grammar dialect depth).Stays source (SurfaceSits source) := by
  cases dialect with
  | rsx => exact Rsx.stays_document depth
  | maud => exact Maud.stays_document depth

theorem lands_recognize (dialect : Dialect) (source : List Char) :
    Lands source (recognize dialect source) (SurfaceSits source) := by
  obtain ⟨hresult, hfurthest⟩ :=
    stays_grammar dialect (source.length + 1) (Cursor.sits_start source)
  unfold recognize
  rcases hout : grammar dialect (source.length + 1) ⟨0, source⟩ with ⟨_ | ⟨nodes, c⟩, furthest⟩ <;>
    rw [hout] at hresult hfurthest
  · have hsome : furthest.isSome := by
      -- a document is named by a rule, so whoever fails has recorded a failure
      have hnamed : ∀ rule p, grammar dialect (source.length + 1) = Matcher.named rule p →
          furthest.isSome := by
        intro rule p hp
        have hfailed : (Matcher.named rule p ⟨0, source⟩).result = none := by rw [← hp, hout]
        simpa [← hp, hout] using furthest_named hfailed
      cases dialect with
      | rsx => exact hnamed _ _ rfl
      | maud => exact hnamed _ _ rfl
    obtain ⟨f, rfl⟩ := Option.isSome_iff_exists.mp hsome
    refine ⟨nofun, fun e he => ?_⟩
    cases he
    refine ⟨f.offset, hfurthest f rfl, rfl, ?_⟩
    rintro rule found d hcause
    cases hcause
    rfl
  · exact Lands.ok (hresult _ rfl).1

/-! ## Expressions -/

theorem lands_ofSource (text : String) {offset : Nat} (h : offset ≤ source.length) :
    Lands source (Expr.ofSource text (locate source offset))
      fun e => e.source = String.ofList (Text.trim text.toList) := by
  unfold Expr.ofSource
  dsimp only
  split
  · exact Lands.error h (by simp)
  · split
    · exact Lands.ok rfl
    · exact Lands.error h (by simp)

theorem lands_readExpr {l : Lexeme} (h : l.Sits source) :
    Lands source (readExpr source l) fun e => e.source = String.ofList (Text.trim l.chars) := by
  have hsource := lands_ofSource l.text h.offset_le
  rwa [Lexeme.text, String.toList_ofList] at hsource

theorem lands_checkClosing {name : Lexeme} {closing : Option Lexeme}
    (h : ∀ l ∈ closing, l.Sits source) :
    Lands source (checkClosing source name closing) fun _ => True := by
  unfold checkClosing
  split
  · exact Lands.ok trivial
  · next l =>
    split
    · exact Lands.ok trivial
    · exact Lands.error (h l rfl).offset_le nofun

end Source

end Stencil
