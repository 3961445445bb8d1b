import Stencil.Proofs.Layout.Elements

/-!
# Control blocks in front of a closing brace

A control block ends in a brace of its own. What stands in front of its body is followed by the
brace that opens the body, so nothing idle follows; the bodies say the same in blocks
(`AlikeBody`).
-/

namespace Stencil.Source

open Text Matcher Rsx

namespace Seam

variable {m : Seam} {source source' : List Char} {nodes nodes' : Matcher (List Surface)}

/-! ## What comes next -/

theorem shuns_block {α : Type} {f : List Surface → Matcher α} : (block nodes >>= f).Shuns :=
  ((shuns_literal (by decide)).bind.named _).bind

theorem accounts_skip : skip.Accounts fun _ _ _ => True :=
  .of_stays fun _ => Rsx.stays_skip

theorem tracks_rawOutput : Tracks 1 m.Near (style nodes).rawOutput (style nodes').rawOutput
    fun s s' x y => AlikeNode source source' s s' ∧ OneNode s ∧ m.Near x y := by
  refine .named _ (.after .offset fun offset offset' => ?_)
  refine (Tracks.named _ (tracks_keyword (by decide))).bind fun _ _ => tracks_skip.bind fun _ _ => ?_
  refine ((tracks_literal (by decide)).relax.narrow fun _ _ h => h.near).bind fun _ _ => ?_
  have hshuns {α : Type} {f : Lexeme → Matcher α} : (closeParen >>= f).Shuns :=
    ((shuns_literal (by decide)).named _).bind
  refine tracks_agrees (tracks_lexeme (fun _ _ h => h) (tracks_exprBody.mono fun _ _ _ _ h => h.near))
    (fun body body' hbody => ?_) (fun _ => hshuns) fun _ => hshuns
  refine Tracks.map (.named _ (tracks_literal (by decide)).relax) fun _ _ _ _ h => ⟨?_, ?_, h⟩
  · exact SameCode.raw (congrArg trim hbody) offset offset'
  · exact oneNode_raw offset body

variable (hblock : Tracks 1 m.Near (block nodes) (block nodes')
  fun b b' x y => AlikeBody source source' b b' ∧ m.Near x y)

include hblock

/-! ## Conditions -/

/-- A condition and the body behind it. -/
theorem tracks_branch : Tracks 0 m.Settled
    (condition >>= fun test => block nodes >>= fun body => pure (test, body))
    (condition >>= fun test => block nodes' >>= fun body => pure (test, body))
    fun b b' x y => AlikeBranch source source' b b' ∧ m.Near x y :=
  tracks_agrees tracks_condition (fun _ _ htest => hblock.relax.map fun _ _ _ _ h =>
    ⟨⟨congrArg trim htest, h.1⟩, h.2⟩) (fun _ => shuns_block) fun _ => shuns_block

theorem tracks_elseIf : Tracks 1 m.Near (style nodes).elseIf (style nodes').elseIf
    fun b b' x y => AlikeBranch source source' b b' ∧ m.Near x y := by
  refine .named _ (.after tracks_skip fun _ _ => ?_)
  refine Tracks.bind (.named _ ((tracks_keyword (by decide)).narrow fun _ _ h => h.near))
    fun _ _ => tracks_skip.bind fun _ _ => ?_
  refine Tracks.bind (.named _ ((tracks_keyword (by decide)).relax.narrow fun _ _ h => h.near))
    fun _ _ => tracks_skip.bind fun _ _ => ?_
  exact tracks_branch hblock

theorem tracks_elseBlock : Tracks 0 m.Near (style nodes).elseBlock (style nodes').elseBlock
    fun b b' x y => AlikeBody source source' b b' ∧ m.Near x y := by
  refine .named _ (tracks_skip.bind fun _ _ => ?_)
  refine Tracks.bind (.named _ ((tracks_keyword (by decide)).relax.narrow fun _ _ h => h.near))
    fun _ _ => tracks_skip.bind fun _ _ => ?_
  exact hblock.relax.narrow fun _ _ h => h.near

/-- The alternatives to a condition that has been read. -/
theorem tracks_alternatives {b b' : Lexeme × List Surface} (hb : AlikeBranch source source' b b')
    (offset offset' : Nat) : Tracks 0 m.Near
    (do
      let others ← many (style nodes).elseIf
      let last ← optional (style nodes).elseBlock
      return Surface.choice offset (b :: others) last)
    (do
      let others ← many (style nodes').elseIf
      let last ← optional (style nodes').elseBlock
      return Surface.choice offset' (b' :: others) last)
    fun s s' x y => AlikeNode source source' s s' ∧ OneNode s ∧ m.Near x y := by
  have hothers : Tracks 0 m.Near (many (style nodes).elseIf) (many (style nodes').elseIf)
      fun bs bs' x y => List.Forall₂ (AlikeBranch source source') bs bs' ∧ m.Near x y :=
    (tracks_elseIf hblock).many (fun _ _ h => h.nil_iff) (fun _ _ _ _ h => h.2)
      (fun _ _ h => ⟨.nil, h⟩) fun h hrest _ => ⟨.cons h.1 hrest.1, hrest.2⟩
  refine hothers.bind fun others others' => .given (fun _ _ h => h.1) fun hothers => ?_
  refine (((tracks_elseBlock hblock).optional fun _ _ h => h.nil_iff).narrow fun _ _ h => h.2).map ?_
  rintro _ _ x y (⟨rfl, rfl, h⟩ | ⟨last, last', rfl, rfl, hlast, h⟩)
  · exact ⟨alike_choice (.cons hb hothers) .none offset offset', oneNode_choice _ _ _, h⟩
  · exact ⟨alike_choice (.cons hb hothers) (.some hlast) offset offset', oneNode_choice _ _ _, h⟩

theorem tracks_ifBlock : Tracks 1 m.Near (style nodes).ifBlock (style nodes').ifBlock
    fun s s' x y => AlikeNode source source' s s' ∧ OneNode s ∧ m.Near x y := by
  refine .named _ (.after .offset fun offset offset' => ?_)
  refine (Tracks.named _ (tracks_keyword (by decide))).bind fun _ _ => tracks_skip.bind fun _ _ => ?_
  refine tracks_agrees tracks_condition (fun test test' htest => ?_) (fun _ => shuns_block)
    fun _ => shuns_block
  refine hblock.relax.bind fun body body' => .given (fun _ _ h => h.1) fun hbody => ?_
  exact (tracks_alternatives hblock ⟨congrArg trim htest, hbody⟩ offset offset').narrow
    fun _ _ h => h.2

/-! ## Loops -/

omit hblock

theorem tracks_forTarget : Tracks 0 m.Near (style nodes).forTarget (style nodes').forTarget
    (m.Agrees fun l l' => l.chars = l'.chars) := by
  have hnames : Tracks 0 m.Near (token .nameList nameList) (token .nameList nameList)
      fun _ _ => m.Near :=
    .named _ ((tracks_same nameList_ignores fits_nameList).mono fun _ _ _ _ h => h.2)
  refine .named _ (tracks_lexeme (fun _ _ h => h) (.orElse ?_ (hnames.map fun _ _ _ _ h => h)))
  refine (tracks_literal (by decide)).relax.bind fun _ _ => tracks_skip.bind fun _ _ => ?_
  refine (hnames.narrow fun _ _ h => h.near).bind fun _ _ => tracks_skip.bind fun _ _ => ?_
  exact ((tracks_literal (by decide)).relax.narrow fun _ _ h => h.near).map fun _ _ _ _ h => h

theorem shuns_in {α : Type} {f : Lexeme → Matcher α} : (space >>= fun _ => wordIn >>= f).Shuns :=
  Shuns.after (.of_stays fun _ => stays_space) fun _ => ((shuns_keyword (by decide)).named _).bind

/-- The word in front of the source of a loop, the source, and what follows. -/
theorem tracks_in {α β : Type} {f : Lexeme → Matcher α} {g : Lexeme → Matcher β}
    {R : α → β → List Char → List Char → Prop}
    (h : ∀ l l', Tracks 0 (m.Agrees (fun l l' => l.chars = l'.chars) l l') (f l) (g l') R) :
    Tracks 0 m.Near (space >>= fun _ => wordIn >>= fun _ => space >>= fun _ => condition >>= f)
      (space >>= fun _ => wordIn >>= fun _ => space >>= fun _ => condition >>= g) R := by
  refine tracks_of_settled ?_ shuns_in shuns_in
  have hspace : Tracks 0 m.Settled space space fun _ _ => m.Settled :=
    .named _ ((tracks_span isSpan_spaces1).relax.mono fun _ _ _ _ h => h.1)
  refine hspace.bind fun _ _ => ?_
  refine Tracks.bind (.named _ ((tracks_keyword (by decide)).relax.narrow fun _ _ h => h.near))
    fun _ _ => tracks_of_settled ?_ shuns_spaced shuns_spaced
  exact hspace.bind fun _ _ => tracks_condition.bind h

/-- The names are the same, and so are the sources. -/
def SameHeads (h h' : Lexeme × Lexeme) : Prop :=
  h.1.chars = h'.1.chars ∧ h.2.chars = h'.2.chars

theorem tracks_forPlain : Tracks 0 m.Near (style nodes).forPlain (style nodes').forPlain
    (m.Agrees SameHeads) := by
  refine .named _ (tracks_agrees tracks_forTarget (fun names names' hnames => ?_)
    (fun _ => shuns_in) fun _ => shuns_in)
  refine tracks_in fun source source' => .pure fun x y h => ⟨h.1, ?_⟩
  exact h.2.imp_right fun hsource => ⟨hnames, hsource⟩

theorem tracks_forParen : Tracks 0 m.Near (style nodes).forParen (style nodes').forParen
    (m.Agrees SameHeads) := by
  have hparen {α : Type} {f : Lexeme → Matcher α} : (closeParen >>= f).Shuns :=
    ((shuns_literal (by decide)).named _).bind
  refine .named _ ((tracks_literal (by decide)).relax.bind fun _ _ => tracks_skip.bind fun _ _ => ?_)
  refine tracks_agrees (tracks_forTarget.narrow fun _ _ h => h.near) (fun names names' hnames => ?_)
    (fun _ => shuns_in) fun _ => shuns_in
  refine tracks_in fun source source' => tracks_of_agrees (fun hsource => ?_) hparen hparen
  exact Tracks.map (.named _ (tracks_literal (by decide)).relax)
    fun _ _ _ _ h => ⟨h, .inr ⟨hnames, hsource⟩⟩

include hblock

theorem tracks_forBlock : Tracks 1 m.Near (style nodes).forBlock (style nodes').forBlock
    fun s s' x y => AlikeNode source source' s s' ∧ OneNode s ∧ m.Near x y := by
  refine .named _ (.after .offset fun offset offset' => ?_)
  refine (Tracks.named _ (tracks_keyword (by decide))).bind fun _ _ => tracks_skip.bind fun _ _ => ?_
  have hhead : Tracks 0 m.Settled
      (named .forHead (orElse (style nodes).forParen (style nodes).forPlain))
      (named .forHead (orElse (style nodes').forParen (style nodes').forPlain))
      (m.Agrees SameHeads) :=
    .named _ ((tracks_forParen.orElse tracks_forPlain).narrow fun _ _ h => h.near)
  have hshuns {α : Type} {f : List Surface → Matcher α} {nodes : Matcher (List Surface)} :
      (skip >>= fun _ => block nodes >>= f).Shuns :=
    Shuns.after accounts_skip fun _ => shuns_block
  refine tracks_agrees hhead (fun head head' hheads => ?_) (fun _ => hshuns) fun _ => hshuns
  refine tracks_skip.bind fun _ _ => ((hblock.relax.narrow fun _ _ h => h.near)).map ?_
  rintro body body' x y ⟨hbody, h⟩
  exact ⟨alike_each hheads.1 (congrArg trim hheads.2) hbody offset offset', oneNode_each _ _ _ _, h⟩

/-! ## Matches -/

omit hblock

/-- The patterns are the same. -/
theorem tracks_pattern : Tracks 1 m.Settled
    (named .pattern (orElse (do let _ ← token .wildcard wildcard; return none)
      (do return some (← patternExpr))))
    (named .pattern (orElse (do let _ ← token .wildcard wildcard; return none)
      (do return some (← patternExpr)))) (m.Agrees (Option.Rel SameCode)) := by
  have hread {text : List Char} {k : Nat} (h : wildcard text = some k) : 1 ≤ k := by
    unfold wildcard at h
    split at h
    · split at h
      · cases h
      · exact Nat.le_of_eq (Option.some.inj h)
    · cases h
  refine .named _ (.orElse (Tracks.map (.named _ ((tracks_scan wildcard_ignores fits_wildcard
    hread).narrow fun _ _ h => h.near)) ?_) (tracks_patternExpr.map ?_))
  · exact fun _ _ _ _ h => ⟨h.2.2.1, .inr .none⟩
  · exact fun _ _ _ _ h => ⟨h.1, h.2.imp_right fun h => .some (congrArg trim h)⟩

/-- The end of an arm, with what separates it from the next one. -/
theorem tracks_armEnd {α β : Type} {E : α → β → Prop} {a : α} {b : β} (h : E a b) :
    Tracks 0 m.Near
      (do skip; let _ ← optional (scan (literal [','])); skip; return a)
      (do skip; let _ ← optional (scan (literal [','])); skip; return b)
      fun a b x y => E a b ∧ m.Settled x y := by
  have hcomma : Tracks 0 m.Settled (optional (scan (literal [',']))) (optional (scan (literal [','])))
      fun _ _ => m.Near := by
    refine (((tracks_literal (by decide)).narrow fun _ _ h => h.near).optional
      fun _ _ h => h.near.nil_iff).mono ?_
    rintro _ _ x y (⟨-, -, h⟩ | ⟨_, _, -, -, h⟩)
    · exact h.near
    · exact h
  exact tracks_skip.bind fun _ _ => hcomma.bind fun _ _ => tracks_skip.map fun _ _ _ _ hsettled =>
    ⟨h, hsettled⟩

include hblock

theorem tracks_matchArm : Tracks 1 m.Settled (style nodes).matchArm (style nodes').matchArm
    fun a a' x y => AlikeArm source source' a a' ∧ m.Settled x y := by
  have hshuns {α : Type} {f : Lexeme → Matcher α} :
      (skip >>= fun _ => token .arrow (literal ['=', '>']) >>= f).Shuns :=
    Shuns.after accounts_skip fun _ => ((shuns_literal (by decide)).named _).bind
  refine .named _ (tracks_agrees tracks_pattern (fun pattern pattern' hpattern => ?_)
    (fun _ => hshuns) fun _ => hshuns)
  refine tracks_skip.bind fun _ _ => ?_
  refine Tracks.bind (.named _ ((tracks_literal (by decide)).relax.narrow fun _ _ h => h.near))
    fun _ _ => tracks_skip.bind fun _ _ => ?_
  refine (hblock.relax.narrow fun _ _ h => h.near).bind fun body body' => .given (fun _ _ h => h.1)
    fun hbody => ?_
  exact (tracks_armEnd (E := AlikeArm source source') ⟨hpattern, hbody⟩).narrow fun _ _ h => h.2

theorem tracks_matchBlock : Tracks 1 m.Near (style nodes).matchBlock (style nodes').matchBlock
    fun s s' x y => AlikeNode source source' s s' ∧ OneNode s ∧ m.Near x y := by
  refine .named _ (.after .offset fun offset offset' => ?_)
  refine (Tracks.named _ (tracks_keyword (by decide))).bind fun _ _ => tracks_skip.bind fun _ _ => ?_
  refine tracks_agrees tracks_condition (fun subject subject' hsubject => ?_)
    (fun _ => (shuns_literal (by decide)).bind) fun _ => (shuns_literal (by decide)).bind
  refine (tracks_literal (by decide)).relax.bind fun _ _ => tracks_skip.bind fun _ _ => ?_
  have harms : Tracks 0 m.Settled (many (style nodes).matchArm) (many (style nodes').matchArm)
      fun as as' x y => List.Forall₂ (AlikeArm source source') as as' ∧ m.Settled x y :=
    (tracks_matchArm hblock).many (fun _ _ h => h.near.nil_iff) (fun _ _ _ _ h => h.2)
      (fun _ _ h => ⟨.nil, h⟩) fun h hrest _ => ⟨.cons h.1 hrest.1, hrest.2⟩
  refine harms.bind fun arms arms' => .given (fun _ _ h => h.1) fun harms => ?_
  refine Tracks.map (.named _ (tracks_brace.relax.narrow fun _ _ h => h.2)) fun _ _ _ _ h => ?_
  exact ⟨alike_cases (congrArg trim hsubject) harms offset offset', oneNode_cases _ _ _, h⟩

theorem tracks_control : Tracks 1 m.Near (style nodes).control (style nodes').control
    fun s s' x y => AlikeNode source source' s s' ∧ OneNode s ∧ m.Near x y :=
  .named _ (.firstOf (.cons (tracks_ifBlock hblock) (.cons (tracks_forBlock hblock)
    (.cons (tracks_matchBlock hblock) .nil))))

end Seam

end Stencil.Source
