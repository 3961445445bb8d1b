import Stencil.Proofs.SideBySide.Elsewhere
import Stencil.Session.Use

/-!
# What lasts in a buffer

A buffer has a history (`Buffer.History`): how many renders into it are in progress, and which texts
were appended to it, in order. All that anything does with a buffer is a step of its history: it
appends a text, asks for all of it, begins a render or ends one. So the text is what was appended,
it only grows, and it is given to everyone who asks while no render is in progress.

That renders are no exception, whatever they run and wherever they fail, is shown by running them
side by side with themselves, with a bond that says that the buffer has a history.
-/

namespace Stencil

namespace Buffer

/-- What has happened to a buffer: so many renders are in progress, and these texts were appended,
in order. -/
inductive History : Nat → List String → Buffer → Prop
  | created (room : Option Nat) : History 0 [] { room := room }
  | appended {n : Nat} {log : List String} {b b' : Buffer} (h : History n log b) {text : String}
    (happend : b.append text = .ok b') : History n (log ++ [text]) b'
  | asked {n : Nat} {log : List String} {b b' : Buffer} (h : History n log b) {text : String}
    (hcontents : b.contents = .ok (text, b')) : History n log b'
  | begun {n : Nat} {log : List String} {b : Buffer} (h : History n log b) :
    History (n + 1) log b.enter
  | ended {n : Nat} {log : List String} {b : Buffer} (h : History (n + 1) log b) :
    History n log b.leave

variable {n : Nat} {log : List String} {b b' : Buffer}

/-! ## What a history says -/

theorem append_eq_ok {text : String} (h : b.append text = .ok b') :
    b'.text = b.text ++ text ∧ b'.depth = b.depth ∧ b'.broken = b.broken := by
  unfold append at h
  split at h
  · rename_i hempty
    cases h
    rw [String.isEmpty_iff.mp hempty, String.append_empty]
    exact ⟨rfl, rfl, rfl⟩
  · split at h <;> cases h <;> exact ⟨rfl, rfl, rfl⟩

theorem contents_eq_ok {text : String} (h : b.contents = .ok (text, b')) :
    text = b.text ∧ b' = { b with room := none } := by
  unfold contents at h
  split at h
  · cases h
  · split at h
    · cases h
    · cases h
      exact ⟨rfl, rfl⟩

namespace History

theorem depth_eq (h : History n log b) : b.depth = n := by
  induction h with
  | created room => rfl
  | appended _ happend ih => exact (append_eq_ok happend).2.1.trans ih
  | asked _ hcontents ih =>
    obtain ⟨-, rfl⟩ := contents_eq_ok hcontents
    exact ih
  | begun _ ih => exact congrArg (· + 1) ih
  | ended _ ih => exact congrArg (· - 1) ih

theorem text_eq (h : History n log b) : b.text = String.join log := by
  induction h with
  | created room => rfl
  | @appended n log b b' _ text happend ih =>
    rw [(append_eq_ok happend).1, ih, String.join_append, String.join_cons, String.join_nil,
      String.append_empty]
  | asked _ hcontents ih =>
    obtain ⟨-, rfl⟩ := contents_eq_ok hcontents
    exact ih
  | begun _ ih => exact ih
  | ended _ ih => exact ih

theorem not_broken (h : History n log b) : b.broken = false := by
  induction h with
  | created room => rfl
  | appended _ happend ih => exact (append_eq_ok happend).2.2.trans ih
  | asked _ hcontents ih =>
    obtain ⟨-, rfl⟩ := contents_eq_ok hcontents
    exact ih
  | begun _ ih => exact ih
  | ended _ ih => exact ih

/-- The text is given exactly if no render is in progress. -/
theorem contents_eq (h : History n log b) :
    b.contents = if n = 0 then .ok (String.join log, { b with room := none })
      else .error .bufferBusy := by
  unfold contents
  rw [h.depth_eq, h.not_broken, h.text_eq]
  cases n <;> rfl

end History

end Buffer

/-! ## Renders are steps of the history -/

open Buffer (History)

variable {α : Type} {n : Nat} {log : List String} {b : Buffer}

namespace Bond

/-- The buffers are one and the same; with so many renders in progress, it has a history that goes
on from what was appended before. Nothing is said of the buffers of other renders. -/
def recorded (log : List String) : Bond (Option Nat) where
  inner := Option.map (· + 1)
  fresh := none
  buffers level c c' := c = c' ∧ ∀ n ∈ level, ∃ more, History n (log ++ more) c
  bodies := Eq
  strict _ := True
  append := by
    rintro level c _ text ⟨rfl, h⟩
    cases happend : c.append text with
    | error e => exact .error e
    | ok d =>
      refine .ok ⟨rfl, fun n hn => ?_⟩
      obtain ⟨more, hmore⟩ := h n hn
      exact ⟨more ++ [text], List.append_assoc .. ▸ hmore.appended happend⟩
  contents := by
    rintro level c _ ⟨rfl, h⟩
    cases hcontents : c.contents with
    | error e => exact .error e
    | ok d => exact .ok ⟨rfl, rfl, fun n hn => (h n hn).imp fun _ hmore => hmore.asked hcontents⟩
  enter := by
    rintro level c _ ⟨rfl, h⟩
    refine ⟨rfl, fun m hm => ?_⟩
    obtain ⟨n, hn, rfl⟩ := Option.map_eq_some_iff.mp hm
    exact (h n hn).imp fun _ hmore => hmore.begun
  leave := by
    rintro level c _ ⟨rfl, h⟩
    refine ⟨rfl, fun n hn => ?_⟩
    exact (h (n + 1) (Option.mem_map_of_mem _ hn)).imp fun _ hmore => hmore.ended
  empty := ⟨rfl, fun n hn => absurd hn (Option.not_mem_none n)⟩
  bodies_refl _ := rfl

theorem recorded_runners (log : List String) (k : Nat) :
    (recorded log).Runners (Render.performWithin k) (Render.performWithin k) :=
  performWithin_agree _ (fun _ hr => sameBodies_of_eq rfl hr) k

theorem history_of_agree {m : Render α} (hm : (recorded log).Agree (some n) m m)
    (h : History n log b) (w : World) :
    ∃ more, History n (log ++ more) (m { w with buffer := b }).2.buffer := by
  have htied : World.Tied (recorded log) (some n) { w with buffer := b } { w with buffer := b } :=
    World.tied_with rfl ⟨rfl, fun _ hk => ⟨[], by rwa [List.append_nil, ← Option.some.inj hk]⟩⟩
      List.nil_prefix
  obtain ⟨-, hafter⟩ := (hm htied).outcome fun _ => trivial
  exact hafter.buffer.2 n rfl

end Bond

/-! ## Uses -/

namespace Use

/-- What a use appends by itself: all of it if it succeeds, and nothing if it fails. A render may
append anything. -/
def Writes : Use → Except Fault (Option String) → List String → Prop
  | .push v, .ok _, texts => ∃ text, v.markup = .ok text ∧ texts = [text]
  | .raw text, .ok _, texts => texts = [text]
  | .push _, .error _, texts | .raw _, .error _, texts => texts = []
  | .contents, _, texts | .enter, _, texts | .leave, _, texts => texts = []
  | .write _, _, _ | .renderTo .., _, _ | .execute .., _, _ => True

end Use

namespace Buffer

theorem perform_raw_ok {text : String} {b' : Buffer} (h : b.append text = .ok b') (w : World) :
    b.perform (.raw text) w = (.ok none, b') := by
  rw [perform, Use.action, Render.bind_apply, Render.append_apply, h]
  rfl

theorem perform_raw_error {text : String} {e : Fault} (h : b.append text = .error e) (w : World) :
    b.perform (.raw text) w = (.error e, b) := by
  rw [perform, Use.action, Render.bind_apply, Render.append_apply, h]

theorem perform_push_ok {v : Value} {text : String} (h : v.markup = .ok text) (w : World) :
    b.perform (.push v) w = b.perform (.raw text) w := by
  rw [perform, perform, Use.action, Use.action, Render.push, h]
  rfl

theorem perform_push_error {v : Value} {e : Fault} (h : v.markup = .error e) (w : World) :
    b.perform (.push v) w = (.error e, b) := by
  rw [perform, Use.action, Render.push, h]
  rfl

theorem perform_contents_ok {text : String} {b' : Buffer} (h : b.contents = .ok (text, b'))
    (w : World) : b.perform .contents w = (.ok (some text), b') := by
  rw [perform, Use.action, Render.bind_apply, Render.contents_apply, h]
  rfl

theorem perform_contents_error {e : Fault} (h : b.contents = .error e) (w : World) :
    b.perform .contents w = (.error e, b) := by
  rw [perform, Use.action, Render.bind_apply, Render.contents_apply, h]

theorem perform_leave_idle (h : b.depth = 0) (w : World) :
    b.perform .leave w = (.error .outOfRange, b) := by
  obtain ⟨text, depth, room, broken⟩ := b
  subst h
  rfl

theorem perform_leave_busy (h : b.depth = n + 1) (w : World) :
    b.perform .leave w = (.ok none, b.leave) := by
  obtain ⟨text, depth, room, broken⟩ := b
  subst h
  rfl

/-- A use that is a render goes on with the history, as whatever it runs does. -/
theorem History.render (h : History n log b) {m : Render Unit} (w : World)
    (hm : (Bond.recorded log).Agree (some n) m m) :
    ∃ more, History n (log ++ more)
      ((do m; return none : Render (Option String)) { w with buffer := b }).2.buffer :=
  Bond.history_of_agree (hm.bind fun _ => Bond.Agree.pure none) h w

theorem History.perform_raw (h : History n log b) (text : String) (w : World) :
    ∃ more, History n (log ++ more) (b.perform (.raw text) w).2 ∧
      (Use.raw text).Writes (b.perform (.raw text) w).1 more := by
  cases happend : b.append text with
  | ok b' =>
    rw [perform_raw_ok happend]
    exact ⟨[text], h.appended happend, rfl⟩
  | error e =>
    rw [perform_raw_error happend]
    exact ⟨[], (List.append_nil log).symm ▸ h, rfl⟩

/-- **Every use of a buffer goes on with its history**, whether it succeeds or fails. -/
theorem History.perform (h : History n log b) (u : Use) (w : World) :
    ∃ more, History (u.progress n) (log ++ more) (b.perform u w).2 ∧
      u.Writes (b.perform u w).1 more := by
  have hsame : History n (log ++ []) b := (List.append_nil log).symm ▸ h
  have hr := Bond.recorded_runners log Render.nestingLimit
  cases u with
  | push v =>
    cases hv : v.markup with
    | error e =>
      rw [perform_push_error hv]
      exact ⟨[], hsame, rfl⟩
    | ok text =>
      rw [perform_push_ok hv]
      obtain ⟨more, hmore, hwrites⟩ := h.perform_raw text w
      refine ⟨more, hmore, ?_⟩
      rcases hout : (b.perform (.raw text) w).1 with e | out
      · rw [hout] at hwrites
        exact hwrites
      · rw [hout] at hwrites
        exact ⟨text, hv, hwrites⟩
  | raw text => exact h.perform_raw text w
  | write v =>
    obtain ⟨more, hmore⟩ := h.render w (Bond.agree_writeValue hr v)
    exact ⟨more, hmore, trivial⟩
  | renderTo v context =>
    obtain ⟨more, hmore⟩ := h.render w (m := Session.renderTo v context) (by
      unfold Session.renderTo
      split
      · exact hr.perform _ _
      · exact Bond.agree_renderTo hr v)
    exact ⟨more, hmore, trivial⟩
  | execute plan scope =>
    obtain ⟨more, hmore⟩ := h.render w (Bond.agree_execPlan hr _ plan scope)
    exact ⟨more, hmore, trivial⟩
  | contents =>
    cases hcontents : b.contents with
    | error e =>
      rw [perform_contents_error hcontents]
      exact ⟨[], hsame, rfl⟩
    | ok given =>
      rw [perform_contents_ok hcontents]
      exact ⟨[], hsame.asked hcontents, rfl⟩
  | enter => exact ⟨[], hsame.begun, rfl⟩
  | leave =>
    cases n with
    | zero =>
      rw [perform_leave_idle h.depth_eq]
      exact ⟨[], hsame, rfl⟩
    | succ n =>
      rw [perform_leave_busy h.depth_eq]
      exact ⟨[], hsame.ended, rfl⟩

theorem History.performAll (h : History n log b) (uses : List (Use × World)) :
    ∃ more, History (Use.progressAll n uses) (log ++ more) (b.performAll uses) := by
  induction uses generalizing n log b with
  | nil => exact ⟨[], (List.append_nil log).symm ▸ h⟩
  | cons use rest ih =>
    obtain ⟨more, hmore, -⟩ := h.perform use.1 use.2
    obtain ⟨later, hlater⟩ := ih hmore
    exact ⟨more ++ later, List.append_assoc log more later ▸ hlater⟩

theorem runSteps_append (run : Runner) (steps rest : List Step) :
    Render.runSteps run (steps ++ rest) =
      Render.runSteps run steps >>= fun _ => Render.runSteps run rest := by
  induction steps with
  | nil => rfl
  | cons step steps ih =>
    rw [List.cons_append, Render.runSteps, Render.runSteps, ih, bind_assoc]

/-- A deferred render that asks for the text of the buffer it goes to is refused. -/
theorem History.asked_within (h : History n log b) (k : Nat) (place : Mark)
    {before : List Step} (after : List Step) {w : World}
    (hbefore : (Render.runSteps (Render.performWithin k) before
      { w with buffer := b.enter }).1 = .ok ()) :
    (Render.writeSelf (Render.performWithin (k + 1))
      (.lazy place (.steps (before ++ .contents :: after))) [] { w with buffer := b }).1 =
        .error .bufferBusy := by
  show (Render.runSteps (Render.performWithin k) (before ++ .contents :: after)
    { w with buffer := b.enter }).1 = _
  obtain ⟨more, hmore⟩ := Bond.history_of_agree (Bond.agree_runSteps
    (Bond.recorded_runners log k) before) h.begun w
  rw [runSteps_append, Render.bind_apply]
  rcases hrun : Render.runSteps (Render.performWithin k) before { w with buffer := b.enter }
    with ⟨outcome, v⟩
  rw [hrun] at hbefore hmore
  cases hbefore
  -- the render in progress is counted still, so the text is refused
  show (((Render.contents >>= fun _ => pure ()) >>= fun _ =>
    Render.runSteps (Render.performWithin k) after : Render Unit) v).1 = _
  rw [Render.bind_apply, Render.bind_apply, Render.contents_apply, hmore.contents_eq]
  rfl

/-- **A buffer has the texts that were appended to it, and gives them when it is not in use.** After
any uses, in any worlds, whether they failed or not: the depth is the number of renders in progress;
who asks for the text gets all that was appended since the buffer was made, in order, if there is no
render in progress, and otherwise is refused and changes nothing; whatever is done next, the text
stays at the front of the new one, and every render leaves the depth as it found it; and a deferred
render that asks for the text itself is refused when it comes to that. -/
theorem performAll_discipline (room : Option Nat) (uses : List (Use × World)) :
    let b := ({ room } : Buffer).performAll uses
    let n := Use.progressAll 0 uses
    ∃ log, History n log b ∧ b.depth = n ∧ b.text = String.join log ∧
      (∀ w : World, Render.contents { w with buffer := b } =
        if n = 0 then (.ok (String.join log), { w with buffer := { b with room := none } })
        else (.error .bufferBusy, { w with buffer := b })) ∧
      (∀ u w,
        let b' := (b.perform u w).2
        b'.depth = u.progress n ∧
        ∃ more, u.Writes (b.perform u w).1 more ∧ History (u.progress n) (log ++ more) b' ∧
          b'.text = b.text ++ String.join more) ∧
      ∀ (k : Nat) (place : Mark) (before after : List Step) (w : World),
        (Render.runSteps (Render.performWithin k) before
          { w with buffer := b.enter }).1 = .ok () →
        (Render.writeSelf (Render.performWithin (k + 1))
          (.lazy place (.steps (before ++ .contents :: after))) [] { w with buffer := b }).1 =
            .error .bufferBusy := by
  intro b n
  obtain ⟨log, h⟩ := (History.created room).performAll uses
  rw [List.nil_append] at h
  refine ⟨log, h, h.depth_eq, h.text_eq, fun w => ?_, fun u w => ?_, ?_⟩
  · rw [Render.contents_apply]
    dsimp only
    rw [h.contents_eq]
    by_cases hn : n = 0
    · rw [if_pos hn, if_pos hn]
    · rw [if_neg hn, if_neg hn]
  · obtain ⟨more, hmore, hwrites⟩ := h.perform u w
    refine ⟨hmore.depth_eq, more, hwrites, hmore, ?_⟩
    rw [hmore.text_eq, h.text_eq, String.join_append]
  · exact fun k place before after w hbefore => h.asked_within k place after hbefore

/-- A deferred render fails where it asks for the text, and what it wrote before stays. -/
theorem performAll_discipline_asking :
    let asking : Value := .lazy .fresh (.steps [.raw "b", .contents, .raw "c"])
    let uses : List (Use × World) := [(.raw "a", {}), (.enter, {}), (.renderTo asking [], {})]
    let b := ({} : Buffer).performAll uses
    (Render.runSteps (Render.performWithin 1) [.raw "b"] { buffer := b.enter }).1 = .ok () ∧
    (Render.writeSelf (Render.performWithin 2) asking [] { buffer := b }).1 =
      .error .bufferBusy ∧
    b.text = "ab" ∧ b.depth = 1 ∧
    (∀ w : World, Render.contents { w with buffer := b } =
      (.error .bufferBusy, { w with buffer := b })) ∧
    ((b.perform .leave {}).2.text = "ab" ∧ (b.perform .leave {}).2.depth = 0) := by
  intro asking uses b
  have hbefore : (Render.runSteps (Render.performWithin 1) [.raw "b"]
    { buffer := b.enter }).1 = .ok () := rfl
  have htext : b.text = "ab" := by decide +kernel
  obtain ⟨log, -, hdepth, -, hcontents, hnext, hasked⟩ := performAll_discipline none uses
  obtain ⟨hleave, more, hmore, -, hafter⟩ := hnext .leave {}
  refine ⟨hbefore, hasked 1 .fresh [.raw "b"] [.raw "c"] {} hbefore, htext, hdepth, hcontents, ?_⟩
  refine ⟨?_, hleave⟩
  have hnothing : more = [] := hmore
  rw [hafter, hnothing, String.join_nil, String.append_empty]
  exact htext

end Buffer

end Stencil
