import Stencil.Proofs.SideBySide.Execute

/-!
# Renders elsewhere

What is rendered does not depend on the buffer that it goes to. The only step that can tell buffers
apart asks for their text, which is refused as long as a render is in progress, and inside a render
one always is. How deep the render stands inside others does not matter either, unless that is too
deep.
-/

namespace Stencil

/-! ## Buffers that grow -/

namespace Buffer

/-- The buffer with a text appended, so many renders further in, with so much room left. -/
def moved (b : Buffer) (renders : Nat) (text : String) (room : Option Nat) : Buffer :=
  { b with text := b.text ++ text, depth := b.depth + renders, room := room }

theorem moved_zero (b : Buffer) : b.moved 0 "" b.room = b := by
  simp [moved]

/-- A text finds the same room in all buffers that have as much. -/
theorem append_moved (renders : Nat) (before : String) (room : Option Nat) (text : String) :
    (∃ left, (room = none → left = none) ∧
        ∀ b : Buffer, (b.moved renders before room).append text =
          .ok (b.moved renders (before ++ text) left)) ∨
      ∃ e, ∀ b : Buffer, (b.moved renders before room).append text = .error e := by
  by_cases hempty : text.isEmpty
  · left
    refine ⟨room, id, fun b => ?_⟩
    rw [append, if_pos hempty, String.isEmpty_iff.mp hempty, String.append_empty]
  · rcases room with _ | _ | room
    · left
      refine ⟨none, id, fun b => ?_⟩
      rw [append, if_neg hempty]
      simp [moved, String.append_assoc]
    · right
      refine ⟨.bufferFull, fun b => ?_⟩
      rw [append, if_neg hempty]
      rfl
    · left
      refine ⟨some room, nofun, fun b => ?_⟩
      rw [append, if_neg hempty]
      simp [moved, String.append_assoc]

theorem contents_moved {b : Buffer} (hb : 0 < b.depth) (renders : Nat) (text : String)
    (room : Option Nat) : (b.moved renders text room).contents = .error .bufferBusy := by
  have hdepth : (b.moved renders text room).depth ≠ 0 := by
    show b.depth + renders ≠ 0
    omega
  simp [contents, hdepth]

end Buffer

/-! ## Worlds that differ in their buffers only -/

variable {ι α : Type} {B : Bond ι} {i : ι} {w w' : World}

/-- If children may only stand for themselves, nothing but buffers can tell the worlds apart. -/
theorem World.Tied.eq_with (h : w.Tied B i w') (hbodies : B.bodies = Eq) :
    w' = { w with buffer := w'.buffer } := by
  have heq : w.bodies = w'.bodies :=
    Array.toList_inj.mp (List.forall₂_eq_eq_eq ▸ hbodies ▸ h.bodies)
  cases w
  cases w'
  simp only [World.mk.injEq]
  exact ⟨trivial, h.cursors.symm, h.frames.symm, heq.symm, h.nextId.symm, h.registry.symm⟩

theorem World.tied_with (hbodies : B.bodies = Eq) {b : Buffer} (h : B.buffers i w.buffer b)
    (hkept : B.kept <+: w.bodies.toList) : w.Tied B i { w with buffer := b } :=
  ⟨h, hbodies ▸ List.forall₂_eq_eq_eq ▸ rfl, hkept, rfl, rfl, rfl, rfl⟩

namespace Bond

theorem Follows.outcome {o o' : Except Fault α × World} (h : B.Follows i o o')
    (hstrict : ∀ e, B.strict e) : o'.1 = o.1 ∧ o.2.Tied B i o'.2 := by
  obtain ⟨r, v⟩ := o
  cases r with
  | ok a => exact h
  | error e => exact h (hstrict e)

/-- Two runners do the same to children, if children may only stand for themselves. -/
theorem sameBodies_of_eq (hbodies : B.bodies = Eq) {run run' : Runner} (hr : B.Runners run run') :
    B.SameBodies run run' := by
  intro b b' h i
  rw [hbodies] at h
  subst h
  exact agree_execPlan hr i b.plan b.scope

/-- The buffers are two that renders are in progress on, with the same text appended to both since,
and as many renders begun; those of a render to a buffer of its own are the same. -/
def elsewhere (b b' : Buffer) (hb : 0 < b.depth) (hb' : 0 < b'.depth) : Bond (Option Nat) where
  inner := Option.map (· + 1)
  fresh := none
  buffers
    | none, c, c' => c = c'
    | some renders, c, c' => ∃ text room, (b.room = none → room = none) ∧
        c = b.moved renders text room ∧ c' = b'.moved renders text room
  bodies := Eq
  strict _ := True
  append := by
    rintro (_ | renders) c c' text hc
    · obtain rfl : c = c' := hc
      cases c.append text with
      | ok d => exact .ok rfl
      | error e => exact .error e
    · obtain ⟨before, room, hroom, rfl, rfl⟩ := hc
      rcases Buffer.append_moved renders before room text with ⟨left, hleft, h⟩ | ⟨e, h⟩
      · rw [h, h]
        exact .ok ⟨before ++ text, left, fun hnone => hleft (hroom hnone), rfl, rfl⟩
      · rw [h, h]
        exact .error e
  contents := by
    rintro (_ | renders) c c' hc
    · obtain rfl : c = c' := hc
      cases c.contents with
      | ok d => exact .ok ⟨rfl, rfl⟩
      | error e => exact .error e
    · obtain ⟨text, room, -, rfl, rfl⟩ := hc
      rw [Buffer.contents_moved hb, Buffer.contents_moved hb']
      exact .error _
  enter := by
    rintro (_ | renders) c c' hc
    · exact congrArg Buffer.enter hc
    · obtain ⟨text, room, hroom, rfl, rfl⟩ := hc
      exact ⟨text, room, hroom, rfl, rfl⟩
  leave := by
    rintro (_ | renders) c c' hc
    · exact congrArg Buffer.leave hc
    · obtain ⟨text, room, hroom, rfl, rfl⟩ := hc
      exact ⟨text, room, hroom, rfl, rfl⟩
  empty := rfl
  bodies_refl _ := rfl

theorem elsewhere_runners (b b' : Buffer) (hb : 0 < b.depth) (hb' : 0 < b'.depth) (n : Nat) :
    (elsewhere b b' hb hb').Runners (Render.performWithin n) (Render.performWithin n) :=
  performWithin_agree _ (fun _ hr => sameBodies_of_eq rfl hr) n

/-- The worlds are one and the same, and children that are there stay where they are. -/
def together (strict : Fault → Prop) (kept : List Body) : Bond Unit where
  inner := id
  fresh := ()
  buffers _ := Eq
  bodies := Eq
  kept := kept
  strict := strict
  append := by
    rintro _ b _ text rfl
    cases b.append text with
    | ok c => exact .ok rfl
    | error e => exact .error e
  contents := by
    rintro _ b _ rfl
    cases b.contents with
    | ok c => exact .ok ⟨rfl, rfl⟩
    | error e => exact .error e
  enter := congrArg Buffer.enter
  leave := congrArg Buffer.leave
  empty := rfl
  bodies_refl _ := rfl

/-- The first render may stop because it is nested too deep. -/
def deeper : Bond Unit :=
  together (· ≠ .tooDeep) []

theorem deeper_runners {n m : Nat} (h : n ≤ m) :
    deeper.Runners (Render.performWithin n) (Render.performWithin m) := by
  induction n generalizing m with
  | zero =>
    exact ⟨fun _ _ _ _ _ hs => absurd rfl hs, fun _ _ _ _ _ hs => absurd rfl hs,
      fun _ _ _ _ _ _ _ hs => absurd rfl hs⟩
  | succ n ih =>
    obtain ⟨m, rfl⟩ := Nat.exists_eq_add_of_le' (Nat.lt_of_lt_of_le (Nat.succ_pos n) h)
    have hr := ih (Nat.le_of_succ_le_succ h)
    exact agree_runner hr (sameBodies_of_eq rfl hr)

theorem tooDeep_or_eq {m m' : Render α} (h : deeper.Agree () m m') (w : World) :
    (m w).1 = .error .tooDeep ∨ m' w = m w := by
  have hm := h (World.tied_with (B := deeper) (i := ()) rfl (rfl : w.buffer = w.buffer) List.nil_prefix)
  rcases hr : m w with ⟨e | a, v⟩ <;> rw [hr] at hm
  · by_cases he : e = .tooDeep
    · exact .inl (congrArg Except.error he)
    · right
      obtain ⟨h₁, h₂⟩ := hm he
      refine Prod.ext h₁ ?_
      have hv := h₂.eq_with rfl
      rw [← show v.buffer = (m' w).2.buffer from h₂.buffer] at hv
      exact hv
  · right
    obtain ⟨h₁, h₂⟩ := hm
    refine Prod.ext h₁ ?_
    have hv := h₂.eq_with rfl
    rw [← show v.buffer = (m' w).2.buffer from h₂.buffer] at hv
    exact hv

end Bond

namespace Render

/-! ## Renders that append -/

/-- The render ends alike and appends the same text, whichever buffer it goes to. -/
def Appends (m : Render Unit) : Prop :=
  ∀ (w : World) (b : Buffer), b.room = w.buffer.room →
    ∃ (outcome : Except Fault Unit) (v : World) (text : String) (room : Option Nat),
      (w.buffer.room = none → room = none) ∧
      m w = (outcome, { v with buffer := w.buffer.moved 0 text room }) ∧
      m { w with buffer := b } = (outcome, { v with buffer := b.moved 0 text room })

theorem Appends.throw (e : Fault) : Appends (throw e) := by
  intro w b hroom
  refine ⟨.error e, w, "", w.buffer.room, id, ?_, ?_⟩
  · rw [Buffer.moved_zero]
    rfl
  · rw [← hroom, Buffer.moved_zero]
    rfl

/-- A render in progress appends, if it agrees with itself wherever renders are in progress. -/
theorem Appends.within {m : Render Unit}
    (h : ∀ b b' hb hb', (Bond.elsewhere b b' hb hb').Agree (some 0) m m) : Appends (within m) := by
  intro w b hroom
  -- both runs begin without a text of their own, and end with the same one
  let B := Bond.elsewhere w.buffer.enter b.enter (Nat.succ_pos _) (Nat.succ_pos _)
  have hstart : B.buffers (some 0) w.buffer.enter b.enter := by
    refine ⟨"", w.buffer.room, id, (Buffer.moved_zero w.buffer.enter).symm, ?_⟩
    rw [← hroom]
    exact (Buffer.moved_zero b.enter).symm
  have hagree := h _ _ (Nat.succ_pos _) (Nat.succ_pos _)
    (World.tied_with (B := B) (i := some 0) (w := { w with buffer := w.buffer.enter }) rfl hstart
      List.nil_prefix)
  obtain ⟨houtcome, htied⟩ := hagree.outcome fun _ => trivial
  obtain ⟨text, room, hnone, hbuffer, hbuffer'⟩ := htied.buffer
  have hworld := htied.eq_with rfl
  rcases hm : m { w with buffer := w.buffer.enter } with ⟨r, v⟩
  rcases hm' : m { w with buffer := b.enter } with ⟨r', v'⟩
  simp only [hm, hm'] at houtcome hbuffer hbuffer' hworld
  subst houtcome
  refine ⟨r', v, text, room, hnone, ?_, ?_⟩
  · show (match m { w with buffer := w.buffer.enter } with
      | (result, w) => (result, { w with buffer := w.buffer.leave })) = _
    rw [hm]
    dsimp only
    rw [hbuffer]
    rfl
  · show (match m { w with buffer := b.enter } with
      | (result, w) => (result, { w with buffer := w.buffer.leave })) = _
    rw [hm']
    dsimp only
    rw [hworld, hbuffer']
    rfl

theorem appends_perform_bound (n : Nat) (t : Template) (context : Scope) :
    Appends ((performWithin n).perform (.bound t context)) := by
  cases n with
  | zero => exact Appends.throw _
  | succ n =>
    exact Appends.within fun b b' hb hb' =>
      Bond.agree_execPlan (Bond.elsewhere_runners b b' hb hb' n) (some 0) t.plan context

theorem appends_within_perform (n : Nat) (action : Deferred) :
    Appends (within ((performWithin n).perform action)) :=
  Appends.within fun b b' hb hb' => (Bond.elsewhere_runners b b' hb hb' n).perform (some 0) action

/-- A render that appends may count as one more render in progress, or not. -/
theorem Appends.within_eq {m : Render Unit} (h : Appends m) : Render.within m = m := by
  funext w
  obtain ⟨outcome, v, text, room, -, hhere, hentered⟩ := h w w.buffer.enter rfl
  show (match m { w with buffer := w.buffer.enter } with
    | (result, w) => (result, { w with buffer := w.buffer.leave })) = _
  rw [hentered, hhere]
  rfl

/-- The text that a render appends is the text that it writes to a buffer of its own, whichever
buffer it would go to otherwise. -/
theorem Appends.onFreshBuffer_apply {m : Render Unit} (h : Appends m) (w : World) {b : Buffer}
    (hb : b.room = none) :
    ∃ (outcome : Except Fault Unit) (v : World) (text : String),
      m { w with buffer := b } = (outcome, { v with buffer := b.moved 0 text none }) ∧
        Render.onFreshBuffer m w = (outcome.map fun _ => text, { v with buffer := w.buffer }) := by
  obtain ⟨outcome, v, text, room, hroom, hhere, hfresh⟩ := h { w with buffer := b } {} hb.symm
  obtain rfl := hroom hb
  refine ⟨outcome, v, text, hhere, ?_⟩
  unfold Render.onFreshBuffer
  rw [bind_apply, hfresh]
  cases outcome with
  | error e => rfl
  | ok _ =>
    dsimp only
    rw [contents_apply]
    simp [Buffer.contents, Buffer.moved, Except.map]

theorem Appends.onFreshBuffer {m : Render Unit} (h : Appends m) {w : World}
    (hw : w.buffer.room = none) :
    ∃ (outcome : Except Fault Unit) (v : World) (text : String),
      m w = (outcome, { v with buffer := w.buffer.moved 0 text none }) ∧
        Render.onFreshBuffer m w = (outcome.map fun _ => text, { v with buffer := w.buffer }) :=
  h.onFreshBuffer_apply w hw

/-! ## Ways to render a template -/

variable {run : Runner}

/-- Writing what has a method for it is to let it write itself. -/
theorem writeValue_self {v : Value} (hkind : ∀ k, v ≠ .kind k)
    (hmember : v.member? "render_to" = some (.method .fresh v .renderTo)) :
    writeValue run v = writeSelf run v [] := by
  have hcall : call run (.method .fresh v .renderTo) [.output] [] =
      (do writeSelf run v []; return .none) := by
    cases v with
    | kind k => exact absurd rfl (hkind k)
    | _ => rfl
  have hwrite : writeValue run v = (do let _ ← call run (.method .fresh v .renderTo) [.output] []) := by
    unfold writeValue
    rw [hmember]
    cases v with
    | kind k => exact absurd rfl (hkind k)
    | _ => rfl
  rw [hwrite, hcall, bind_assoc]
  simp only [pure_bind, bind_pure_unit]

theorem writeValue_lazy (place : Mark) (action : Deferred) :
    writeValue run (.lazy place action) = writeSelf run (.lazy place action) [] :=
  writeValue_self nofun (by cases action <;> rfl)

theorem renderSelf_apply {v : Value} {context : Arguments} {w u : World}
    {outcome : Except Fault Unit} {text : String}
    (h : onFreshBuffer (writeSelf run v context) w = (outcome.map fun _ => text, u)) :
    renderSelf run v context w = (outcome.map fun _ => .rendered .fresh text, u) := by
  rw [renderSelf, bind_apply, h]
  cases outcome <;> rfl

theorem execOp_of_evaluate {e : Expr} {scope : Scope} {v : Value} {u w : World}
    (h : evaluate run e scope u = (.ok v, w)) :
    execOp run (.escaped e false) scope u = writeValue run v w := by
  rw [execOp, bind_apply, h]
  rfl

/-- A template as a component is a render of it with the arguments that it is given. -/
theorem callComponent_of_template {reference : Expr} {contents : List (String × Content)}
    {children : Option Plan} {scope : Scope} {place : Mark} {t : Template} {context : Arguments}
    {u v w : World} (hreference : evaluate run reference scope u = (.ok (.template place t), v))
    (harguments : (do withChildren children scope (← arguments run scope contents []) :
      Render Arguments) v = (.ok context, w)) :
    callComponent run reference contents children scope u =
      writeValue run (.lazy .fresh (.bound t context)) w := by
  unfold callComponent
  rw [bind_apply, hreference]
  show (arguments run scope contents [] >>= fun given => withChildren children scope given >>=
    fun given => call run (.template place t) [] given >>= writeValue run) v = _
  rw [← bind_assoc, bind_apply, harguments]
  rfl

/-- **A render does not depend on the buffer that it goes to.** A template or a deferred render ends
alike and appends the same text to all buffers, whatever was written to them before and however many
renders are in progress on them. So the text is the same in all the ways to render a template with a
context: to a buffer, as a text, bound and then as a text, bound and written as a value, and as a
component. A render nested deeper does the same, unless it is nested too deep. -/
theorem render_elsewhere (n : Nat) :
    (∀ place t context, Appends (writeSelf (performWithin n) (.template place t) context)) ∧
    (∀ place action, Appends (writeSelf (performWithin n) (.lazy place action) [])) ∧
    (∀ (t : Template) (context : Arguments) (w : World), w.buffer.room = none →
      ∃ (outcome : Except Fault Unit) (v : World) (text : String),
        let wrote := (outcome, { v with buffer := w.buffer.moved 0 text none })
        let gave := (outcome.map fun _ => Value.rendered .fresh text, { v with buffer := w.buffer })
        ∀ place place',
          writeSelf (performWithin n) (.template place t) context w = wrote ∧
          call (performWithin n) (.method place' (.template place t) .render) [] context w = gave ∧
          call (performWithin n) (.method place' (.template place t) .bind) [] context w =
            (.ok (.lazy .fresh (.bound t context)), w) ∧
          call (performWithin n) (.method place' (.lazy place (.bound t context)) .render) [] [] w =
            gave ∧
          (∀ e scope u,
            evaluate (performWithin n) e scope u = (.ok (.lazy place (.bound t context)), w) →
              execOp (performWithin n) (.escaped e false) scope u = wrote) ∧
          ∀ reference contents children scope u u',
            evaluate (performWithin n) reference scope u = (.ok (.template place t), u') →
              (do withChildren children scope (← arguments (performWithin n) scope contents []) :
                Render Arguments) u' = (.ok context, w) →
                execOp (performWithin n) (.call reference contents children) scope u = wrote) ∧
    ∀ m ≥ n, ∀ v context w,
      (writeSelf (performWithin n) v context w).1 = .error .tooDeep ∨
        writeSelf (performWithin m) v context w = writeSelf (performWithin n) v context w := by
  have hlazy : ∀ place t context,
      writeSelf (performWithin n) (.lazy place (.bound t context)) [] =
        (performWithin n).perform (.bound t context) := fun _ t context =>
    (appends_perform_bound n t context).within_eq
  refine ⟨fun _ t context => appends_perform_bound n t context,
    fun _ action => appends_within_perform n action, fun t context w hw => ?_,
    fun m hm v context w =>
      Bond.tooDeep_or_eq (Bond.agree_writeSelf (Bond.deeper_runners hm) v context) w⟩
  -- all the ways come down to this one render, to the given buffer or to a new one
  obtain ⟨outcome, v, text, hwrote, hfresh⟩ := (appends_perform_bound n t context).onFreshBuffer hw
  refine ⟨outcome, v, text, fun place place' =>
    ⟨hwrote, renderSelf_apply hfresh, rfl, renderSelf_apply (v := .lazy place _) ?_, ?_, ?_⟩⟩
  · rw [hlazy]
    exact hfresh
  · intro e scope u he
    rw [execOp_of_evaluate he, writeValue_lazy, hlazy]
    exact hwrote
  · intro reference contents children scope u u' hreference harguments
    rw [execOp, callComponent_of_template hreference harguments, writeValue_lazy, hlazy]
    exact hwrote

/-- A paragraph with a text that is looked up, and what it is rendered with. -/
def remark : Except CompileError Template :=
  (Template.compile .builtin .rsx "<p>{x}</p>" "remark" false).2

def remarkContext : Arguments :=
  [("x", .ofString "<")]

set_option maxRecDepth 20000 in
theorem render_elsewhere_remark :
    ∃ (t : Template) (v : World), remark = .ok t ∧
      let value : Value := .lazy .fresh (.bound t remarkContext)
      let w : World := { buffer := { text := "a", depth := 1 } }
      execOp (performWithin 2) (.escaped ⟨"v", .name "v", none, rfl⟩ false) [("v", value)] w =
          (.ok (), { v with buffer := { text := "a<p>&lt;</p>", depth := 1 } }) ∧
        call (performWithin 2) (.method .fresh value .render) [] [] w =
          (.ok (.rendered .fresh "<p>&lt;</p>"), { v with buffer := w.buffer }) := by
  have hrun : (match remark with
      | .ok t =>
        let written := writeSelf (performWithin 2) (.template .fresh t) remarkContext
          { buffer := { text := "a", depth := 1 } }
        written.1.toOption.isSome && written.2.buffer.text == "a" ++ "<p>&lt;</p>"
      | .error _ => false) = true := by decide +kernel
  rcases hremark : remark with e | t <;> rw [hremark] at hrun
  · cases hrun
  obtain ⟨outcome, v, text, hways⟩ := (render_elsewhere 2).2.2.1 t remarkContext
    { buffer := { text := "a", depth := 1 } } rfl
  obtain ⟨hwrote, -, -, hgave, hvalue, -⟩ := hways .fresh .fresh
  simp only [hwrote, Buffer.moved, Bool.and_eq_true, beq_iff_eq] at hrun
  obtain ⟨houtcome, htext⟩ := hrun
  obtain rfl := (String.append_right_inj _).mp htext
  cases outcome with
  | error e => cases houtcome
  | ok _ => exact ⟨t, v, rfl, hvalue _ _ _ rfl, hgave⟩

end Render

end Stencil
