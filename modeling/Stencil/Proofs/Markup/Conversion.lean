import Stencil.Proofs.Components.Arguments
import Stencil.Proofs.Markup.Escape
import Stencil.Proofs.SideBySide.Elsewhere

/-!
# Two ways to markup

A value becomes markup in two ways: as the content of a response, and by being written to a buffer.
The first one asks for a member `render` and escapes what has none; the second one asks for a member
`render_to` and does not escape numbers. They come to the same, since the texts of numbers have
nothing to escape, and since what has one of these members by its kind has both, or is markup
already.
-/

namespace Stencil

open Record

namespace Value

/-! ## Members of its own -/

/-- The members that a value does not have by its kind: those of an object, and of a part of a
template. -/
def own : Value → List (String × Value)
  | .object _ members => members
  | .record _ _ _ fields more => fields ++ more
  | _ => []

/-- The names of the members that a value has of its own. -/
def ownNames (v : Value) : List String :=
  v.own.map Prod.fst

/-- Whether a value has a member of its own to be rendered by. -/
def OwnsRender (v : Value) : Prop :=
  "render" ∈ v.ownNames ∨ "render_to" ∈ v.ownNames

/-- A part of a template: of its tree or of its plan, as it is or settled. -/
inductive IsPart : Value → Prop
  | expr (e : Expr) : IsPart e.toValue
  | content (c : Content) : IsPart c.toValue
  | attr (a : Attribute) : IsPart a.toValue
  | node (n : Node) : IsPart n.toValue
  | op (op : Op) : IsPart op.toValue
  | target (op : Op) {v : Value} (h : op.toValue.member? "target" = some v) : IsPart v
  | settled {v : Value} (h : IsPart v) (id : Nat) : IsPart (v.settle id).1

theorem map_settleMembers (members : List (String × Value)) (id : Nat) :
    (settleMembers members id).1.map Prod.fst = members.map Prod.fst := by
  induction members generalizing id with
  | nil => simp [settleMembers]
  | cons m rest ih =>
    obtain ⟨name, v⟩ := m
    simp [settleMembers, ih]

/-- Settling does not change what a value has of its own. -/
theorem ownNames_settle (v : Value) (id : Nat) : (v.settle id).1.ownNames = v.ownNames := by
  unfold ownNames
  cases v with
  | object m members => cases m <;> simp [settle, own, map_settleMembers]
  | record m label tupled fields more => cases m <;> simp [settle, own, map_settleMembers]
  | none | bool b | iterator kind id | component c | builtin f | kind k | output =>
    simp [settle, own]
  | int m | float m | str m | list m | tuple m | dict m | view m | set m | range m | raw m
  | rendered m | derived m | template m | lazy m | method m =>
    cases m <;> simp [settle, own]

/-- **No part of a template can be rendered by itself.** -/
theorem IsPart.not_ownsRender {v : Value} (h : v.IsPart) : ¬ v.OwnsRender := by
  induction h with
  | expr e => simp [OwnsRender, ownNames, own, Expr.toValue, part]
  | content c => cases c <;> simp [OwnsRender, ownNames, own, Content.toValue, part]
  | attr a => simp [OwnsRender, ownNames, own, Attribute.toValue, part]
  | node n => cases n <;> simp [OwnsRender, ownNames, own, Node.toValue, part]
  | op op =>
    cases op with
    | call reference arguments children =>
      cases children <;> simp [OwnsRender, ownNames, own, Op.toValue, operation, invocation]
    | _ => simp [OwnsRender, ownNames, own, Op.toValue, operation, invocation]
  | target op h =>
    cases op with
    | call reference arguments children =>
      cases children <;> cases h <;> simp [OwnsRender, ownNames, own, operation]
    | _ => cases h <;> simp [OwnsRender, ownNames, own, operation]
  | settled _ id ih => rwa [OwnsRender, ownNames_settle]

/-! ## Members to be rendered by -/

theorem member_eq_none {v : Value} (hkind : v.renderKind? = Option.none) (h : ¬ v.OwnsRender) :
    v.member? "render" = Option.none ∧ v.member? "render_to" = Option.none := by
  obtain ⟨hrender, hto⟩ := not_or.mp h
  cases v with
  | object m members => exact ⟨named_eq_none.mpr hrender, named_eq_none.mpr hto⟩
  | record m label tupled fields more =>
    simp only [ownNames, own, List.map_append, List.mem_append, not_or] at hrender hto
    simp [member?, named_eq_none.mpr hrender.1, named_eq_none.mpr hrender.2,
      named_eq_none.mpr hto.1, named_eq_none.mpr hto.2]
  | raw | template | lazy | kind => cases hkind
  | builtin f => cases f <;> exact ⟨rfl, rfl⟩
  | derived m scalar text => cases scalar <;> exact ⟨rfl, rfl⟩
  | none | bool | int | float | str | list | tuple | dict | view | set | range | iterator | rendered
  | component | method | output => exact ⟨rfl, rfl⟩

end Value

/-! ## Numbers and texts -/

/-- Everything but `None` is written as its text, escaped, whether that is done or not. -/
theorem Value.markup_eq {v : Value} (h : v ≠ .none) : v.markup = v.text.map Text.escape := by
  have hwritten : v.written = v.text := by
    cases v <;> first | rfl | exact absurd rfl h
  unfold markup
  rw [hwritten]
  cases htext : v.text with
  | error e => rfl
  | ok text =>
    show Except.ok (if v.needsEscaping then Text.escape text else text) = .ok (Text.escape text)
    split
    · rfl
    · next hneeds =>
      have hnumber : v.isNumber = true := by
        cases v <;> first | rfl | exact absurd rfl h | exact absurd rfl hneeds
      rw [Text.escape_of_plain (plain_number hnumber (hwritten.trans htext))]

namespace Render

/-- Converting a value gives the text that writing it appends to a new buffer, or the same fault,
and does the same to everything but the buffer. -/
def ConvertsAlike (v : Value) : Prop :=
  ∀ w : World,
    let wrote := writeValue runner v { w with buffer := {} }
    let gave := toMarkup v w
    gave.1.map Value.string? = wrote.1.map (fun _ => some wrote.2.buffer.text) ∧
      gave.2 = { wrote.2 with buffer := w.buffer }

theorem push_apply (v : Value) (w : World) :
    push v w = match v.markup with
      | .ok text => append text w
      | .error e => (.error e, w) := by
  unfold push
  rw [bind_apply]
  cases v.markup <;> rfl

theorem append_fresh (text : String) (w : World) :
    append text { w with buffer := {} } = (.ok (), { w with buffer := { text } }) := by
  rw [append_growing rfl]
  dsimp only
  rw [String.empty_append]

/-- What is written as escaped text is converted by escaping its text. -/
theorem convertsAlike_push {v : Value} (hv : v ≠ .none) (hwrite : writeValue runner v = push v)
    (hmarkup : toMarkup v = do return .ofString (Text.escape (← result v.text))) :
    ConvertsAlike v := by
  intro w
  rw [hwrite, hmarkup, push_apply, Value.markup_eq hv, bind_apply]
  cases v.text with
  | error e => exact ⟨rfl, rfl⟩
  | ok text =>
    simp only [Except.map]
    rw [append_fresh]
    exact ⟨rfl, rfl⟩

/-- What appends is converted by letting it write to a buffer of its own. -/
theorem convertsAlike_appends {v : Value} {m : Render Unit} (hm : Appends m)
    (hwrite : writeValue runner v = m)
    (hmarkup : toMarkup v = do return .rendered .fresh (← onFreshBuffer m)) :
    ConvertsAlike v := by
  intro w
  obtain ⟨outcome, u, text, hwrote, hgave⟩ := hm.onFreshBuffer_apply w (b := {}) rfl
  rw [hwrite, hmarkup]
  simp only [bind_apply, hgave, hwrote]
  cases outcome with
  | error e => exact ⟨rfl, rfl⟩
  | ok _ =>
    refine ⟨?_, rfl⟩
    show Except.ok (some text) = Except.ok (some ("" ++ text))
    rw [String.empty_append]

variable {v : Value}

theorem convertsAlike_of_kindless (hnone : v ≠ .none) (hrendered : ∀ m markup, v ≠ .rendered m markup)
    (hkind : v.renderKind? = none) (hown : ¬ v.OwnsRender) : ConvertsAlike v := by
  obtain ⟨hrender, hto⟩ := Value.member_eq_none hkind hown
  refine convertsAlike_push hnone ?_ ?_
  · unfold writeValue
    rw [hto]
    cases v <;> rfl
  · unfold toMarkup
    rw [hrender]
    cases v with
    | rendered m markup => exact absurd rfl (hrendered m markup)
    | raw | kind => cases hkind
    | _ => rfl

theorem convertsAlike_kind (k : Kind) : ConvertsAlike (.kind k) :=
  convertsAlike_push nofun rfl rfl

theorem convertsAlike_raw (m textMark : Mark) (markup : String) :
    ConvertsAlike (.raw m textMark markup) := by
  intro w
  have hwrite : writeValue runner (.raw m textMark markup) = append markup :=
    writeValue_self nofun rfl
  rw [hwrite, append_fresh]
  exact ⟨rfl, rfl⟩

theorem convertsAlike_lazy (m : Mark) (action : Deferred) : ConvertsAlike (.lazy m action) :=
  convertsAlike_appends (appends_within_perform nestingLimit action) (writeValue_lazy m action)
    (by cases action <;> rfl)

theorem convertsAlike_template (m : Mark) (t : Template) : ConvertsAlike (.template m t) :=
  convertsAlike_appends (appends_perform_bound nestingLimit t []) (writeValue_self nofun rfl) rfl

/-- **The two ways to markup agree.** For every value but `None`, a rendered text and an object with
a member of its own to be rendered by: converting it gives exactly the text that writing it appends
to a new buffer, fails exactly if that fails, with the same fault, and leaves the same world behind.
The parts of a template, which have members of their own, too, are never excepted. -/
theorem toMarkup_eq_writeValue :
    (∀ v : Value, v ≠ .none → (∀ m markup, v ≠ .rendered m markup) → ¬ v.OwnsRender →
      ∀ w : World,
        let wrote := writeValue runner v { w with buffer := {} }
        let gave := toMarkup v w
        gave.1.map Value.string? = wrote.1.map (fun _ => some wrote.2.buffer.text) ∧
          gave.2 = { wrote.2 with buffer := w.buffer }) ∧
    ∀ v : Value, v.IsPart → ¬ v.OwnsRender := by
  refine ⟨fun v hnone hrendered hown => ?_, fun v => Value.IsPart.not_ownsRender⟩
  show ConvertsAlike v
  cases hkind : v.renderKind? with
  | none => exact convertsAlike_of_kindless hnone hrendered hkind hown
  | some kind =>
    cases v with
    | raw m textMark markup => exact convertsAlike_raw m textMark markup
    | lazy m action => exact convertsAlike_lazy m action
    | template m t => exact convertsAlike_template m t
    | kind k => exact convertsAlike_kind k
    | _ => cases hkind

/-- A deferred render with another one in it. -/
def nestedNote : Value :=
  let inner : Value := .lazy .fresh (.steps [.push (.ofString "<"), .write (.ofInt 1)])
  .lazy .fresh (.steps [.raw "<b>", .write inner, .raw "</b>"])

theorem toMarkup_eq_writeValue_nested :
    nestedNote ≠ .none ∧ (∀ m markup, nestedNote ≠ .rendered m markup) ∧ ¬ nestedNote.OwnsRender ∧
      (toMarkup nestedNote {}).1.map Value.string? = .ok (some "<b>&lt;1</b>") ∧
      ¬ (Op.literal "<b>").toValue.OwnsRender := by
  have hnone : nestedNote ≠ .none := nofun
  have hrendered : ∀ m markup, nestedNote ≠ .rendered m markup := nofun
  have hown : ¬ nestedNote.OwnsRender := by
    simp [nestedNote, Value.OwnsRender, Value.ownNames, Value.own]
  have hrun : (let wrote := writeValue runner nestedNote {}
      wrote.1.toOption.isSome && wrote.2.buffer.text == "<b>&lt;1</b>") = true := by decide +kernel
  obtain ⟨hgave, -⟩ := toMarkup_eq_writeValue.1 nestedNote hnone hrendered hown {}
  refine ⟨hnone, hrendered, hown, ?_, toMarkup_eq_writeValue.2 _ (.op _)⟩
  rw [hgave]
  rcases hwrote : writeValue runner nestedNote {} with ⟨_ | _, v⟩ <;> rw [hwrote] at hrun
  · cases hrun
  · exact congrArg (Except.ok <| some ·) (beq_iff_eq.mp hrun)

end Render

end Stencil
