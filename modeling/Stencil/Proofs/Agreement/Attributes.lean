import Stencil.Proofs.Agreement.Controls

/-!
# Spelled attributes

What attributes have in common in both dialects: what stands behind an attribute, and the values
that follow an equals sign.
-/

namespace Stencil.Source

open Matcher

/-! ## What surface values mean -/

/-- The surface value of an attribute is read as a content that says the same. -/
def MeansValue (value : Option SurfaceValue) (content : Content) : Prop :=
  ∀ source name, ∃ c, readValue source name value = .ok c ∧ c.same content

theorem means_attribute {l : Lexeme} {value : Option SurfaceValue} {a : Attribute}
    (hl : l.chars = a.name.toList) (hvalue : MeansValue value a.value) :
    SurfaceAttribute.Means ⟨l, value⟩ a := by
  intro source
  obtain ⟨c, hc, hsame⟩ := hvalue source l
  refine ⟨⟨l.text, c, locate source l.offset⟩, ?_, ?_⟩
  · rw [readAttribute, hc]
    rfl
  · simp [Attribute.same, Lexeme.text, hl, hsame]

theorem meansValue_none {e : Expr} (he : e.source = "True") : MeansValue none (.toggle e) := by
  intro source name
  have htrim : Text.trim "True".toList = e.source.toList := by
    rw [he]
    decide
  obtain ⟨e', he', hsource⟩ := ofSource_of_trim (by simp [he]) htrim (locate source name.offset)
  refine ⟨.toggle e', ?_, ?_⟩
  · rw [readValue, he']
    rfl
  · simp [Content.same, Expr.same, hsource]

theorem meansValue_quoted {l : Lexeme} {text : String}
    (hl : l.chars = '"' :: (text.toList ++ ['"'])) :
    MeansValue (some (.quoted l)) (.literal text) := by
  intro source name
  refine ⟨_, rfl, ?_⟩
  simp [Content.same, Lexeme.unwrapped, hl]

theorem meansValue_expr {l : Lexeme} {e : Expr} (hl : l.Spells e) :
    MeansValue (some (.expr l)) (.dynamic e false) := by
  intro source name
  obtain ⟨e', he', hsource⟩ := hl source
  refine ⟨.dynamic e' false, ?_, ?_⟩
  · rw [readValue, he']
    rfl
  · simp [Content.same, Expr.same, hsource]

theorem meansValue_toggle {l : Lexeme} {e : Expr} (hl : l.Spells e) :
    MeansValue (some (.toggle l)) (.toggle e) := by
  intro source name
  obtain ⟨e', he', hsource⟩ := hl source
  refine ⟨.toggle e', ?_, ?_⟩
  · rw [readValue, he']
    rfl
  · simp [Content.same, Expr.same, hsource]

/-! ## Behind an attribute -/

/-- What may stand behind an attribute: another one, or the end of the tag or of what is in front of
a block. -/
def EndsAttribute (t : List Char) : Prop :=
  (∃ u, t = '>' :: u) ∨ ∃ c u, t = ' ' :: c :: u ∧ (Text.isAsciiLetter c ∨ c = '{')

/-- The character is none that the value of an attribute begins with, nor does it open a list of
attributes. -/
def IsNoValue (c : Char) : Prop :=
  c ≠ '?' ∧ c ≠ '=' ∧ c ≠ '[' ∧ c ≠ '('

theorem isNoValue_letter {c : Char} (hc : Text.isAsciiLetter c) : IsNoValue c := by
  refine ⟨?_, ?_, ?_, ?_⟩ <;> rintro rfl <;> exact absurd hc (by decide)

theorem EndsAttribute.stops {p : Char → Bool} (hend : p '>' = false) (hspace : p ' ' = false)
    {t : List Char} (h : EndsAttribute t) : Stops p t := by
  rcases h with ⟨u, rfl⟩ | ⟨c, u, rfl, -⟩
  · exact hend
  · exact hspace

/-- What stands behind an attribute is no value of it, whether a space is skipped or not. -/
theorem EndsAttribute.spaced {t : List Char} (h : EndsAttribute t) :
    ∃ c u, (t = c :: u ∨ t = ' ' :: c :: u) ∧ Firm (c :: u) ∧ IsNoValue c := by
  rcases h with ⟨u, rfl⟩ | ⟨c, u, rfl, hc | rfl⟩
  · exact ⟨'>', u, .inl rfl, rfl, by simp [IsNoValue]⟩
  · exact ⟨c, u, .inr rfl, firm_of_nameChar (nameChar_of_letter hc) u, isNoValue_letter hc⟩
  · exact ⟨'{', u, .inr rfl, rfl, by simp [IsNoValue]⟩

theorem endsAttribute_attributes (d : Dialect) {attributes : List Attribute}
    (hattributes : ∀ a ∈ attributes, a.CanBeSpelled) {t : List Char} (ht : EndsAttribute t) :
    EndsAttribute (Spell.attributes d attributes ++ t) := by
  cases attributes with
  | nil => exact ht
  | cons a rest =>
    obtain ⟨c, more, hc, hletter, -⟩ :=
      isWordName_plain (hattributes a (List.mem_cons_self ..)).1
    right
    refine ⟨c, more ++ (Spell.value d a.value ++ Spell.attributes d rest) ++ t, ?_, .inl hletter⟩
    rw [Spell.attributes, hc]
    rfl

/-! ## Values behind an equals sign -/

section

variable {skip : Matcher Unit} (hskip : Skips skip)

include hskip

/-- An equals sign and a value: a text in quotes, or an expression as the dialect puts it. -/
theorem takes_assigned {d : Dialect} {expr : Matcher Lexeme} {c : Char} (hquote : c ≠ '"')
    (hfirm : ∀ t, Firm (c :: t)) (hopen : ∀ e, ∃ u, Spell.splice d e = c :: u)
    (hexpr : ∀ e : Expr, isIdentifier e.source.toList → ∀ t,
      expr.Takes (Spell.splice d e) t fun l => l.chars = e.source.toList)
    {a : Attribute} (ha : a.CanBeSpelled) (htoggle : ∀ e, a.value ≠ .toggle e) (t : List Char) :
    (do
      skip
      let _ ← scan (literal ['='])
      skip
      assigned expr).Takes (Spell.value d a.value) t fun v => MeansValue (some v) a.value := by
  obtain ⟨name, content, place⟩ := a
  obtain ⟨-, ha⟩ := ha
  dsimp only at ha htoggle ⊢
  cases content with
  | literal text =>
    have htext : Spell.value d (.literal text) = ['='] ++ ('"' :: (text.toList ++ ['"'])) := rfl
    rw [htext]
    refine Takes.skip (hskip.nothing (by rfl)) fun _ _ => ?_
    refine (Takes.scan (literal_append _ _)).bind fun _ _ => ?_
    refine Takes.skip (hskip.nothing (by rfl)) fun _ _ => Takes.firstOf ?_
    refine (Takes.token ?_).map fun l hl => meansValue_quoted hl
    have hbetween := between_append ha t
    simpa using hbetween
  | dynamic e raw =>
    obtain ⟨he, rfl⟩ := ha
    obtain ⟨u, hu⟩ := hopen e
    have htext : Spell.value d (.dynamic e false) = ['='] ++ Spell.splice d e := rfl
    rw [htext]
    refine Takes.skip (hskip.nothing (by rfl)) fun _ _ => ?_
    refine (Takes.scan (literal_append _ _)).bind fun _ _ => ?_
    refine Takes.skip (hskip.nothing (by rw [hu]; exact hfirm _)) fun _ _ => ?_
    refine Refuses.firstOf ?_ (Takes.firstOf ?_)
    · rw [hu]
      refine (Refuses.token ?_).bind
      simp [between, hquote]
    · exact (hexpr e he t).map fun l hl => meansValue_expr
        (Lexeme.spells (embeds_identifier he) hl)
  | toggle e => exact absurd rfl (htoggle e)
  | _ => exact ha.elim

/-- No equals sign stands behind an attribute without a value. -/
theorem refuses_mark {α : Type} {f : Lexeme → Matcher α} {x : Char} {word t : List Char}
    (hx : ∀ c, IsNoValue c → x ≠ c) (ht : EndsAttribute t) :
    (skip >>= fun _ => scan (literal (x :: word)) >>= f).Refuses t := by
  obtain ⟨c, u, hu, hfirm, hc⟩ := ht.spaced
  have hmark : (scan (literal (x :: word)) >>= f).Refuses (c :: u) :=
    (Refuses.scan (literal_ne (hx c hc) word u)).bind
  rcases hu with rfl | rfl
  · exact (hskip.nothing hfirm).refuses fun _ _ => hmark
  · exact (hskip.space hfirm).refuses fun _ _ => hmark

end

/-! ## Whole attributes -/

/-- A dialect reads the values of attributes as they were spelled, and none where there is none. -/
structure ReadsValues (d : Dialect) (toggle assign : Matcher SurfaceValue) : Prop where
  takes_toggle : ∀ {e : Expr}, isIdentifier e.source.toList → e.source ≠ "True" → ∀ t,
    toggle.Takes (Spell.value d (.toggle e)) t fun v => MeansValue (some v) (.toggle e)
  takes_assign : ∀ {a : Attribute}, a.CanBeSpelled → (∀ e, a.value ≠ .toggle e) → ∀ t,
    assign.Takes (Spell.value d a.value) t fun v => MeansValue (some v) a.value
  equals : ∀ t, toggle.Refuses ('=' :: t)
  ends : ∀ {t}, EndsAttribute t → toggle.Refuses t ∧ assign.Refuses t

variable {d : Dialect} {toggle assign : Matcher SurfaceValue} {a : Attribute} {t : List Char}

theorem ReadsValues.takes (h : ReadsValues d toggle assign) (rule : Rule) (ha : a.CanBeSpelled)
    (ht : EndsAttribute t) :
    (optional (named rule (orElse toggle assign))).Takes (Spell.value d a.value) t
      (MeansValue · a.value) := by
  have hfound : ∀ {p : Matcher SurfaceValue}, Spell.value d a.value ≠ [] →
      p.Takes (Spell.value d a.value) t (fun v => MeansValue (some v) a.value) →
        (optional p).Takes (Spell.value d a.value) t (MeansValue · a.value) := by
    intro p hne hp
    refine (hp.optional hne).mono ?_
    rintro _ ⟨v, rfl, hv⟩
    exact hv
  by_cases htoggle : ∃ e, a.value = .toggle e
  · obtain ⟨e, he⟩ := htoggle
    obtain ⟨-, hvalue⟩ := ha
    rw [he] at hfound hvalue ⊢
    by_cases htrue : e.source = "True"
    · -- a toggle that is always on has no value, so what follows the name must not be taken for one
      have htext : Spell.value d (.toggle e) = [] := by
        simp [Spell.value, htrue]
      obtain ⟨hnone, hnone'⟩ := h.ends ht
      rw [htext]
      refine (Refuses.optional (.inr ((hnone.both hnone').named rule))).mono ?_
      rintro _ rfl
      exact meansValue_none htrue
    · refine hfound ?_ (Takes.named _ (Takes.orElse (h.takes_toggle hvalue htrue t)))
      cases d <;> simp [Spell.value, htrue]
  · have htoggle : ∀ e, a.value ≠ .toggle e := fun e he => htoggle ⟨e, he⟩
    obtain ⟨u, hu⟩ : ∃ u, Spell.value d a.value = '=' :: u := by
      obtain ⟨-, hvalue⟩ := ha
      cases hcontent : a.value with
      | literal | dynamic => exact ⟨_, rfl⟩
      | toggle e => exact absurd hcontent (htoggle e)
      | joined | unknown =>
        rw [hcontent] at hvalue
        exact hvalue.elim
    refine hfound (by simp [hu]) (Takes.named _ (Refuses.orElse ?_ (h.takes_assign ha htoggle t)))
    rw [hu]
    exact h.equals _

/-- No name goes on into the value behind it. -/
theorem stops_value (content : Content) (ht : EndsAttribute t) :
    Stops isAttributeChar (Spell.value d content ++ t) := by
  cases content with
  | literal | dynamic => rfl
  | toggle e =>
    by_cases htrue : e.source = "True"
    · have htext : Spell.value d (.toggle e) = [] := by
        simp [Spell.value, htrue]
      rw [htext]
      exact ht.stops (by decide) (by decide)
    · cases d <;> simp [Spell.value, htrue, Stops] <;> decide
  | joined | unknown => exact ht.stops (by decide) (by decide)

/-- A name with the value behind it. -/
theorem ReadsValues.takes_named (h : ReadsValues d toggle assign) (rule : Rule)
    (ha : a.CanBeSpelled) (ht : EndsAttribute t) :
    (do
      let name ← token .attributeName attributeName
      let value ← optional (named rule (orElse toggle assign))
      return (⟨name, value⟩ : SurfaceAttribute)).Takes
        (a.name.toList ++ Spell.value d a.value) t (·.Means a) := by
  have hname := attributeName_append (isWordName_plain ha.1) (stops_value (d := d) a.value ht)
  refine (Takes.token hname).bind fun l hl => ?_
  exact (h.takes rule ha ht).map fun v hv => means_attribute hl hv

/-- A dialect that takes an attribute behind a space takes all of them. -/
theorem takesAll_attributes {p : Matcher SurfaceAttribute}
    (hp : ∀ {a : Attribute}, a.CanBeSpelled → ∀ {t}, EndsAttribute t →
      p.Takes ([' '] ++ (a.name.toList ++ Spell.value d a.value)) t (·.Means a))
    (ht : EndsAttribute t) (hend : p.Refuses t) {attributes : List Attribute}
    (hattributes : ∀ a ∈ attributes, a.CanBeSpelled) :
    TakesAll p SurfaceAttribute.Means (Spell.attributes d attributes) t attributes := by
  induction attributes with
  | nil => exact .nil (.inr hend)
  | cons a rest ih =>
    obtain ⟨ha, hrest⟩ := List.forall_mem_cons.mp hattributes
    have htext : Spell.attributes d (a :: rest) =
        ([' '] ++ (a.name.toList ++ Spell.value d a.value)) ++ Spell.attributes d rest := by
      simp [Spell.attributes]
    rw [htext]
    exact .cons (by simp) (hp ha (endsAttribute_attributes d hrest ht)) (ih hrest)

end Stencil.Source
