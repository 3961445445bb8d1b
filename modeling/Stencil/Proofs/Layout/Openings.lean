import Stencil.Proofs.Agreement.Trees
import Stencil.Proofs.Layout.Ahead

/-!
# What opens a body

A body is opened by a brace with something in front: a condition, the head of a loop, a pattern, and
the branches and arms before it. Of each it is asked that it is read as such whatever stands behind
the brace. Then white space behind the brace makes no difference to the control block.
-/

namespace Stencil.Source

open Text Matcher Rsx

/-! ## Heads -/

/-- The text is read as a condition in front of a brace, whatever stands behind the brace. In front
of it there is white space where a word would go on. -/
structure IsTest (gap text : List Char) : Prop where
  isGap : IsGap gap
  ends : ∀ t, Stops isWord (gap ++ (text ++ t))
  firm : ∀ t, Stops isSpace (text ++ t)
  takes : ∀ t, condition.Takes text ('{' :: t) fun l => l.chars = text

/-- What opens the body of an alternative. -/
def elseOpening (left right head : List Char) : List Char :=
  left ++ (['@', 'e', 'l', 's', 'e'] ++ (right ++ head))

/-- Behind the word of an alternative there is the brace, or a further condition in front of it. -/
structure IsAlternative (left right head : List Char) : Prop where
  isGap_left : IsGap left
  isGap_right : IsGap right
  ends : ∀ t, Stops isWord (right ++ (head ++ t))
  isHead : head = ['{'] ∨
    ∃ gap test, IsTest gap test ∧ head = ['i', 'f'] ++ (gap ++ (test ++ ['{']))

/-- The head of a loop. -/
def loopHead (nodes : Matcher (List Surface)) : Matcher (Lexeme × Lexeme) :=
  named .forHead (orElse (style nodes).forParen (style nodes).forPlain)

/-- The text is read as the names and the source of a loop, whatever stands behind the brace. -/
structure IsLoopHead (gap text gap' : List Char) : Prop where
  isGap : IsGap gap
  isGap' : IsGap gap'
  ends : ∀ t, Stops isWord (gap ++ (text ++ t))
  firm : ∀ t, Stops isSpace (text ++ t)
  takes : ∃ names e, ∀ nodes t, (loopHead nodes).Takes text (gap' ++ '{' :: t)
    fun head => head.1.chars = names ∧ head.2.Spells e

/-- The pattern of an arm; none for the wildcard. -/
def armPattern : Matcher (Option Lexeme) :=
  named .pattern (orElse (do let _ ← token .wildcard wildcard; return none)
    (do return some (← patternExpr)))

/-- The text is read as a pattern in front of an arrow, whatever stands behind the arrow. -/
structure IsPattern (text gap : List Char) : Prop where
  isGap : IsGap gap
  takes : ∃ pattern, ∀ t, armPattern.Takes text (gap ++ '=' :: '>' :: t) (MeansPattern · pattern)

/-- The text is read as a block with this body, whatever follows. -/
def IsBlock (text : List Char) (body : List Node) : Prop :=
  ∀ n, text.length ≤ n → ∀ t, (block (nodesWithin n)).Takes text t (Mean · body)

/-- The text is made of pieces that are read one after the other, whatever follows behind the text
that comes next. -/
inductive Precedes {α β : Type} (p : Nat → Matcher α) (R : α → β → Prop) (next : List Char) :
    List Char → Prop
  | nil : Precedes p R next []
  | cons {s s' : List Char} {b : β} (hs : s ≠ [])
    (h : ∀ n, s.length ≤ n → ∀ t, (p n).Takes s (s' ++ (next ++ t)) (R · b))
    (hrest : Precedes p R next s') : Precedes p R next (s ++ s')

theorem takes_skip {w t : List Char} (hw : IsGap w) (ht : Stops isSpace t) :
    skip.Takes w t fun _ => True := by
  refine (Takes.scan (s := w) ?_).map fun _ _ => trivial
  rw [spaces, run_append hw ht]

/-! ### Spelled heads -/

theorem stops_word_gap {gap t : List Char} (hgap : IsGap gap) (h : gap ≠ [] ∨ Stops isWord t) :
    Stops isWord (gap ++ t) := by
  rcases gap with _ | ⟨c, gap⟩
  · exact h.resolve_left fun hne => hne rfl
  · exact idle_not_word (hgap.isIdle c (List.mem_cons_self ..))

/-- A balanced text is a condition, if it has no brace outside of brackets and strings. -/
theorem isTest_balanced {gap text : List Char} (hgap : IsGap gap) (hne : gap ≠ [])
    (htext : Balanced false text) (hfirm : ∀ t, Stops isSpace (text ++ t)) (hsome : text ≠ []) :
    IsTest gap text where
  isGap := hgap
  ends _ := stops_word_gap hgap (.inl hne)
  firm := hfirm
  takes := takes_condition_balanced htext hsome

/-- The brace itself may stand behind the word of an alternative. -/
theorem isAlternative_last {left right : List Char} (hleft : IsGap left) (hright : IsGap right) :
    IsAlternative left right ['{'] :=
  ⟨hleft, hright, fun _ => stops_word_gap hright (.inr rfl), .inl rfl⟩

/-- Names and a name for the source are the head of a loop. -/
theorem isLoopHead_spelled {names : List String} (hne : names ≠ [])
    (hnames : ∀ name ∈ names, isIdentifier name.toList) {e : Expr}
    (he : isIdentifier e.source.toList) : IsLoopHead [' '] (Spell.names names ++ ([' '] ++
      (['i', 'n'] ++ ([' '] ++ (e.source.toList ++ [' ']))))) [] := by
  obtain ⟨name, rest, rfl⟩ := List.exists_cons_of_ne_nil hne
  obtain ⟨hname, hrest⟩ := List.forall_mem_cons.mp hnames
  obtain ⟨c, -, more, -, hc, -, hhead, -⟩ := isHeld_names hname hrest
  refine ⟨List.forall_mem_singleton.mpr rfl, List.forall_mem_nil _, fun t => rfl, fun t => ?_,
    Spell.names (name :: rest), e, fun nodes t => Takes.named _ (Refuses.orElse ?_ ?_)⟩
  · rw [hc]
    exact (firm_of_nameChar (nameChar_of_identifierChar hhead) _).stops
  · rw [hc]
    exact (ControlStyle.refuses_paren hhead _).named _
  · exact ControlStyle.takes_forPlain hne hnames he t

/-- The wildcard is a pattern. -/
theorem isPattern_wildcard {gap : List Char} (hgap : IsGap gap) : IsPattern ['_'] gap := by
  refine ⟨hgap, none, fun t => Takes.named _ (Takes.orElse ?_)⟩
  refine (Takes.token ?_).map fun _ _ => trivial
  have hhead : ((gap ++ '=' :: '>' :: t).head?.any fun c =>
      isWord c || c == '.' || c == '(' || c == '[') = false := by
    rcases gap with _ | ⟨c, gap⟩
    · rfl
    · have hidle := hgap.isIdle c (List.mem_cons_self ..)
      have hmark := idle_not_mark hidle
      simp only [List.mem_cons, not_or] at hmark
      simp [idle_not_word hidle, hmark]
  show wildcard ('_' :: (gap ++ '=' :: '>' :: t)) = some 1
  rw [wildcard, hhead]
  rfl

/-- A tree that can be spelled is the body of a block. -/
theorem isBlock_spelled {body : List Node} (h : NodesCanBeSpelled body) :
    IsBlock (Spell.block (Spell.nodes .rsx body)) body := by
  intro n hn t
  have hlength : (Spell.nodes .rsx body).length < n := by
    simp only [Spell.block, List.length_append, List.length_cons] at hn
    omega
  exact blocks (fun t ht => readsNodes.takes n h hlength ht) t

/-! ### Saying the same -/

theorem alikeBody_of_mean {source source' : List Char} {ss ss' : List Surface} {body : List Node}
    (h : Mean ss body) (h' : Mean ss' body) : AlikeBody source source' ss ss' := by
  intro items hitems
  obtain ⟨_, hread, -, hsame⟩ := h source
  obtain ⟨items', hread', -, hsame'⟩ := h' source'
  rw [hitems] at hread
  cases hread
  exact ⟨items', hread', sameNodes_of_same body hsame hsame'⟩

theorem sameCode_of_spells {l l' : Lexeme} {e : Expr} (h : l.Spells e) (h' : l'.Spells e) :
    SameCode l l' := by
  have htrim {l : Lexeme} (h : l.Spells e) : trim l.chars = e.source.toList := by
    obtain ⟨e', he', hsource⟩ := h []
    obtain ⟨hchars, -⟩ := Expr.ofSource_eq_ok he'
    rw [← hsource, hchars, String.toList_ofList, Lexeme.text, String.toList_ofList]
  exact (htrim h).trans (htrim h').symm

theorem alikeBranch_of_means {source source' : List Char} {s s' : Lexeme × List Surface}
    {b : Expr × List Node} (h : MeansBranch s b) (h' : MeansBranch s' b) :
    AlikeBranch source source' s s' :=
  ⟨sameCode_of_spells h.1 h'.1, alikeBody_of_mean h.2 h'.2⟩

theorem sameCode_of_meansPattern {p p' : Option Lexeme} {pattern : Option Expr}
    (h : MeansPattern p pattern) (h' : MeansPattern p' pattern) : Option.Rel SameCode p p' := by
  rcases p with _ | l <;> rcases p' with _ | l' <;> rcases pattern with _ | e <;>
    simp only [MeansPattern] at h h'
  · exact .none
  · exact .some (sameCode_of_spells h h')

theorem alikeArm_of_means {source source' : List Char} {s s' : Option Lexeme × List Surface}
    {b : Option Expr × List Node} (h : MeansArm s b) (h' : MeansArm s' b) :
    AlikeArm source source' s s' :=
  ⟨sameCode_of_meansPattern h.1 h'.1, alikeBody_of_mean h.2 h'.2⟩

theorem refuses_armPattern (u : List Char) : armPattern.Refuses ('}' :: u) :=
  Refuses.named _ ((Refuses.token (by rfl)).bind.both (ControlStyle.refuses_patternExpr u).bind)

/-- A block begins with a brace. -/
theorem IsBlock.exists_cons {text : List Char} {body : List Node} (h : IsBlock text body) :
    ∃ s, text = '{' :: s := by
  obtain ⟨_, -, hread⟩ := h _ (Nat.le_refl _) [] 0
  rw [List.append_nil] at hread
  have hno {text : List Char} {n : Nat} (hnone : literal ['{'] text = none) :
      (block (nodesWithin n)).Refuses text :=
    (Refuses.scan hnone).bind.named _
  rcases text with _ | ⟨c, s⟩
  · rw [hno rfl 0] at hread
    cases hread
  · by_cases hc : '{' = c
    · exact ⟨s, by rw [hc]⟩
    · rw [hno (literal_ne hc _ _) 0] at hread
      cases hread

/-- What opens the body of an arm. -/
def armOpening (pattern left right : List Char) : List Char :=
  pattern ++ (left ++ (['=', '>'] ++ (right ++ ['{'])))

theorem refuses_closeBrace_arm {pattern left : List Char} (hpattern : IsPattern pattern left)
    (right t : List Char) : closeBrace.Refuses (armOpening pattern left right ++ t) := by
  obtain ⟨code, htakes⟩ := hpattern.takes
  have htake := htakes (right ++ '{' :: t)
  have htext : armOpening pattern left right ++ t =
      pattern ++ (left ++ '=' :: '>' :: (right ++ '{' :: t)) := by
    simp [armOpening]
  rw [htext]
  generalize left ++ '=' :: '>' :: (right ++ '{' :: t) = rest at htake
  refine Refuses.token ?_
  rcases htext : pattern ++ rest with _ | ⟨c, u⟩
  · rfl
  refine literal_ne ?_ _ _
  rintro rfl
  obtain ⟨_, -, hread⟩ := htake 0
  rw [htext, refuses_armPattern u 0] at hread
  cases hread

namespace Seam

variable {m : Seam} {source source' : List Char}

/-- The texts begin with the same text. Behind it there is white space for the second, and then
the same follows. -/
def Opened (m : Seam) (w s x y : List Char) : Prop :=
  ∃ r, m.tail <:+ r ∧ (w = [] ∨ ¬ BeginsHidden r) ∧ x = s ++ r ∧ y = s ++ (w ++ r)

section

variable {α β γ δ : Type} {k : Nat} {w s s' : List Char} {p : Matcher α} {P : α → Prop}

theorem Opened.ne_nil {x y : List Char} (h : m.Opened w s x y) (hs : s ≠ []) : x ≠ [] ∧ y ≠ [] := by
  obtain ⟨r, -, -, rfl, rfl⟩ := h
  simp [hs]

theorem tracks_of_takes (hk : k ≤ s.length) (h : ∀ t, p.Takes s (s' ++ t) P) :
    Tracks k (m.Opened w (s ++ s')) p p fun a b x y => P a ∧ P b ∧ m.Opened w s' x y := by
  rintro _ _ ⟨r, hr, hhidden, rfl, rfl⟩ o o'
  rw [List.append_assoc, List.append_assoc]
  exact Abreast.of_takes (h r) (h (w ++ r)) hk hk
    (fun _ _ ha hb => ⟨ha, hb, r, hr, hhidden, rfl, rfl⟩) o o'

theorem tracks_of_refused {q : Matcher β} {Q : α → β → List Char → List Char → Prop}
    (h : ∀ t, p.Refuses (s ++ t)) (h' : ∀ t, q.Refuses (s ++ t)) : Tracks k (m.Opened w s) p q Q := by
  refine .of_refuses ?_
  rintro _ _ ⟨r, -, -, rfl, rfl⟩
  exact ⟨h _, h' _⟩

/-- A step that does not come to the brace. -/
theorem tracks_ahead {f : α → Matcher γ} {g : α → Matcher δ}
    {R : γ → δ → List Char → List Char → Prop} (hk : k ≤ s.length)
    (h : ∀ t, p.Takes s (s' ++ t) P)
    (hf : ∀ a b, P a → P b → Tracks 0 (m.Opened w s') (f a) (g b) R) :
    Tracks k (m.Opened w (s ++ s')) (p >>= f) (p >>= g) R :=
  (tracks_of_takes hk h).bind fun a b _ _ ⟨ha, hb, hxy⟩ => hf a b ha hb hxy

/-- A condition behind the word that introduces it. -/
theorem tracks_test {f : Lexeme → Matcher γ} {g : Lexeme → Matcher δ}
    {R : γ → δ → List Char → List Char → Prop} {word gap test : List Char} (rule : Rule)
    (hk : k ≤ word.length) (htest : IsTest gap test) (hbrace : ∃ u, s = '{' :: u)
    (hf : ∀ l l', SameCode l l' → Tracks 0 (m.Opened w s) (f l) (g l') R) :
    Tracks k (m.Opened w (word ++ (gap ++ (test ++ s))))
      (token rule (keyword word) >>= fun _ => skip >>= fun _ => condition >>= f)
      (token rule (keyword word) >>= fun _ => skip >>= fun _ => condition >>= g) R := by
  refine tracks_ahead hk (fun t => Takes.token (keyword_append ?_)) fun _ _ _ _ => ?_
  · simpa using htest.ends (s ++ t)
  refine tracks_ahead (Nat.zero_le _) (fun t => takes_skip htest.isGap ?_) fun _ _ _ _ => ?_
  · simpa using htest.firm (s ++ t)
  obtain ⟨u, rfl⟩ := hbrace
  exact tracks_ahead (Nat.zero_le _) (fun t => htest.takes _) fun l l' hl hl' =>
    hf l l' (congrArg trim (hl.trans hl'.symm))

/-- A repetition goes over the pieces that come first. -/
theorem repeats_precedes {p : Nat → Matcher α} {R : α → β → Prop} {E : α → α → Prop}
    {J : List α → List α → List Char → List Char → Prop} {n : Nat} {next pieces : List Char}
    (hpieces : Precedes p R next pieces) (hn : pieces.length ≤ n)
    (hE : ∀ {a a' b}, R a b → R a' b → E a a')
    (hcons : ∀ {a a' as as' x y}, E a a' → J as as' x y → J (a :: as) (a' :: as') x y)
    (hnext : ∀ {x y}, m.Opened w next x y → Repeats (p n) (p n) J x y) {x y : List Char}
    (hxy : m.Opened w (pieces ++ next) x y) : Repeats (p n) (p n) J x y := by
  induction hpieces generalizing x y with
  | nil => exact hnext hxy
  | @cons s s' b hs h hrest ih =>
    obtain ⟨r, hr, hhidden, rfl, rfl⟩ := hxy
    rw [List.length_append] at hn
    have htake (t : List Char) : (p n).Takes s ((s' ++ next) ++ t) (R · b) := by
      rw [List.append_assoc]
      exact h n (by omega) t
    have hlater := ih (by omega) ⟨r, hr, hhidden, rfl, rfl⟩
    have hboth := hlater.both hs (htake r) hs (htake (w ++ r))
    simp only [List.append_assoc] at hboth ⊢
    refine hboth.mono ?_
    rintro _ _ _ _ ⟨a, as, a', as', rfl, rfl, ha, ha', hJ⟩
    exact hcons (hE ha ha') hJ

end

section

variable {w : List Char} (hm : m.gap = []) (hw : IsGap w) (n : Nat)

include hm hw

variable (source source') in
/-- White space behind the brace makes no difference to a block. -/
theorem tracks_openBlock : Tracks 1 (m.Opened w ['{']) (block (nodesWithin n)) (block (nodesWithin n))
    fun b b' x y => AlikeBody source source' b b' ∧ m.Near x y := by
  rw [← List.append_nil ['{']]
  refine .named _ (tracks_ahead (Nat.le_refl 1) (fun t => Takes.scan (literal_append _ _))
    fun _ _ _ _ => ?_)
  cases n with
  | zero => exact fun _ _ _ _ _ => .fail rfl rfl
  | succ n =>
    have hbody : Tracks 0 (m.Opened w []) (nodesWithin (n + 1) : Matcher (List Surface))
        (nodesWithin (n + 1)) (m.BodyEnd source source') := by
      rintro _ _ ⟨r, hr, hhidden, rfl, rfl⟩
      exact (Repeats.mono (repeats_body hm hr hw (tracks_nodesWithin n) hhidden)
        fun _ _ _ _ h => .inl h).many
    exact hbody.bind fun _ _ => tracks_bodyEnd

/-! ## Control blocks -/

/-- White space in the body of a condition. -/
theorem tracks_openedIf {gap test : List Char} (htest : IsTest gap test) :
    Tracks 1 (m.Opened w (['@', 'i', 'f'] ++ (gap ++ (test ++ ['{']))))
      (style (nodesWithin n)).ifBlock (style (nodesWithin n)).ifBlock
      fun s s' x y => AlikeNode source source' s s' ∧ m.Near x y := by
  refine .named _ (.after .offset fun offset offset' => ?_)
  refine tracks_test _ (by decide) htest ⟨[], rfl⟩ fun l l' hl => ?_
  refine (tracks_openBlock source source' hm hw n).relax.bind fun body body' => ?_
  refine .given (fun _ _ h => h.1) fun hbody => ?_
  exact (tracks_alternatives (tracks_block (tracks_nodesWithin n)) ⟨hl, hbody⟩ offset offset').weaken
    (fun _ _ h => h.2) fun _ _ _ _ h => ⟨h.1, h.2.2⟩

/-- White space in the body of a loop. -/
theorem tracks_openedLoop {gap head gap' : List Char} (hhead : IsLoopHead gap head gap') :
    Tracks 1 (m.Opened w (['@', 'f', 'o', 'r'] ++ (gap ++ (head ++ (gap' ++ ['{'])))))
      (style (nodesWithin n)).forBlock (style (nodesWithin n)).forBlock
      fun s s' x y => AlikeNode source source' s s' ∧ m.Near x y := by
  obtain ⟨names, e, htakes⟩ := hhead.takes
  refine .named _ (.after .offset fun offset offset' => ?_)
  refine tracks_ahead (by decide) (fun t => Takes.token (keyword_append ?_)) fun _ _ _ _ => ?_
  · simpa using hhead.ends (gap' ++ '{' :: t)
  refine tracks_ahead (Nat.zero_le _) (fun t => takes_skip hhead.isGap ?_) fun _ _ _ _ => ?_
  · simpa using hhead.firm (gap' ++ '{' :: t)
  have hread (t : List Char) : (loopHead (nodesWithin n)).Takes head (gap' ++ ['{'] ++ t)
      fun head => head.1.chars = names ∧ head.2.Spells e := by
    rw [List.append_assoc]
    exact htakes (nodesWithin n) t
  refine tracks_ahead (Nat.zero_le _) hread fun loop loop' hloop hloop' => ?_
  refine tracks_ahead (Nat.zero_le _) (fun t => takes_skip hhead.isGap' (by rfl)) fun _ _ _ _ => ?_
  refine (tracks_openBlock source source' hm hw n).relax.map fun body body' x y h => ⟨?_, h.2⟩
  exact alike_each (hloop.1.trans hloop'.1.symm) (sameCode_of_spells hloop.2 hloop'.2) h.1 offset
    offset'

omit hm hw in
/-- What stands behind the word of an alternative. -/
theorem tracks_else {α β : Type} {f : Matcher α} {g : Matcher β}
    {R : α → β → List Char → List Char → Prop} {left right head : List Char}
    (helse : IsAlternative left right head) (hf : Tracks 0 (m.Opened w head) f g R) :
    Tracks 1 (m.Opened w (elseOpening left right head))
      (skip >>= fun _ => wordElse >>= fun _ => skip >>= fun _ => f)
      (skip >>= fun _ => wordElse >>= fun _ => skip >>= fun _ => g) R := by
  refine (tracks_of_takes (Nat.zero_le _)
    fun t => takes_skip helse.isGap_left (by rfl)).after fun _ _ => ?_
  refine Tracks.narrow ?_ fun _ _ h => h.2.2
  refine tracks_ahead (by decide) (fun t => Takes.token (keyword_append ?_)) fun _ _ _ _ => ?_
  · simpa using helse.ends t
  refine tracks_ahead (Nat.zero_le _) (fun t => takes_skip helse.isGap_right ?_) fun _ _ _ _ => hf
  obtain hhead | ⟨gap, test, -, hhead⟩ := helse.isHead <;> rw [hhead] <;> rfl

variable (m source source' w) in
omit hm hw in
/-- How further conditions may end: in front of the brace, or behind it. -/
def BranchesEnd (opening : List Char) (bs bs' : List (Lexeme × List Surface))
    (x y : List Char) : Prop :=
  List.Forall₂ (AlikeBranch source source') bs bs' ∧ (m.Near x y ∨ m.Opened w opening x y)

/-- A further condition. -/
theorem repeats_openedElse {left right head : List Char} (helse : IsAlternative left right head)
    {x y : List Char} (hxy : m.Opened w (elseOpening left right head) x y) :
    Repeats (style (nodesWithin n)).elseIf (style (nodesWithin n)).elseIf
      (m.BranchesEnd source source' w (elseOpening left right head)) x y := by
  have hblock : Tracks 1 m.Near (block (nodesWithin n)) (block (nodesWithin n))
      fun b b' x y => AlikeBody source source' b b' ∧ m.Near x y :=
    tracks_block (tracks_nodesWithin n)
  have hne : elseOpening left right head ≠ [] := by simp [elseOpening]
  have hread : Tracks 1 (m.Opened w (elseOpening left right head))
      (style (nodesWithin n)).elseIf (style (nodesWithin n)).elseIf
      fun b b' x y => AlikeBranch source source' b b' ∧ m.Near x y := by
    refine .named _ (tracks_else helse ?_)
    obtain rfl | ⟨gap, test, htest, rfl⟩ := helse.isHead
    · have hnone (t : List Char) : keyword ['i', 'f'] ('{' :: t) = none := keyword_none (by simp)
      exact tracks_of_refused (fun t => (Refuses.token (hnone t)).bind)
        fun t => (Refuses.token (hnone t)).bind
    · refine tracks_test _ (Nat.zero_le _) htest ⟨[], rfl⟩ fun l l' hl => ?_
      exact (tracks_openBlock source source' hm hw n).relax.map fun _ _ _ _ h => ⟨⟨hl, h.1⟩, h.2⟩
  refine Repeats.step (K := fun _ _ bs bs' x y => List.Forall₂ (AlikeBranch source source') bs bs' ∧
    m.Near x y) (hxy.ne_nil hne).1 (hxy.ne_nil hne).2 (hread hxy) ⟨.nil, .inr hxy⟩ (fun h _ _ => ?_)
    fun _ _ h hrest _ => ⟨.cons h.1 hrest.1, .inl hrest.2⟩
  exact (tracks_elseIf hblock).repeats (fun _ _ h => h.nil_iff) (fun _ _ _ _ h => h.2)
    (fun _ _ h => ⟨.nil, h⟩) (fun h hrest _ => ⟨.cons h.1 hrest.1, hrest.2⟩) h.2

variable (source source') in
/-- The alternative without a condition. -/
theorem tracks_openedLast {left right head : List Char} (helse : IsAlternative left right head) :
    Tracks 0 (fun x y => m.Near x y ∨ m.Opened w (elseOpening left right head) x y)
      (style (nodesWithin n)).elseBlock (style (nodesWithin n)).elseBlock
      fun b b' x y => AlikeBody source source' b b' ∧ m.Near x y := by
  have hopened : Tracks 0 (m.Opened w (elseOpening left right head))
      (style (nodesWithin n)).elseBlock (style (nodesWithin n)).elseBlock
      fun b b' x y => AlikeBody source source' b b' ∧ m.Near x y := by
    refine .named _ (tracks_else helse ?_).relax
    obtain rfl | ⟨gap, test, -, rfl⟩ := helse.isHead
    · exact (tracks_openBlock source source' hm hw n).relax
    · have hnone (t : List Char) : (block (nodesWithin n)).Refuses ('i' :: t) :=
        (Refuses.scan (literal_ne (by decide) _ _)).bind.named _
      exact tracks_of_refused (fun t => hnone _) fun t => hnone _
  rintro x y (hxy | hxy)
  · exact tracks_elseBlock (tracks_block (tracks_nodesWithin n)) hxy
  · exact hopened hxy

variable (source source') in
/-- White space in the body of an alternative. If that cannot be read, the condition ends in front
of it. -/
theorem tracks_openedElse {gap test first others left right head : List Char} {body : List Node}
    (htest : IsTest gap test) (hfirst : IsBlock first body) (helse : IsAlternative left right head)
    (hothers : Precedes (fun n => (style (nodesWithin n)).elseIf) MeansBranch
      (elseOpening left right head) others) (hn : (first ++ others).length ≤ n) :
    Tracks 1 (m.Opened w (['@', 'i', 'f'] ++ (gap ++ (test ++ (first ++ (others ++
      elseOpening left right head))))))
      (style (nodesWithin n)).ifBlock (style (nodesWithin n)).ifBlock fun s s' x y =>
        (AlikeNode source source' s s' ∧ m.Near x y) ∨
          m.Opened w (elseOpening left right head) x y := by
  rw [List.length_append] at hn
  have hne : elseOpening left right head ≠ [] := by simp [elseOpening]
  obtain ⟨inside, hinside⟩ := hfirst.exists_cons
  refine .named _ (.after .offset fun offset offset' => ?_)
  refine tracks_test _ (by decide) htest ⟨_, by rw [hinside]; rfl⟩ fun l l' hl => ?_
  refine tracks_ahead (Nat.zero_le _) (fun t => hfirst n (by omega) _) fun b b' hb hb' => ?_
  have hbody : AlikeBody source source' b b' := alikeBody_of_mean hb hb'
  have hmany : Tracks 0 (m.Opened w (others ++ elseOpening left right head))
      (many (style (nodesWithin n)).elseIf) (many (style (nodesWithin n)).elseIf)
      (m.BranchesEnd source source' w (elseOpening left right head)) :=
    fun x y hxy => (repeats_precedes hothers (by omega) alikeBranch_of_means
      (fun h hrest => ⟨.cons h hrest.1, hrest.2⟩) (repeats_openedElse hm hw n helse) hxy).many
  refine hmany.bind fun bs bs' => .given (fun _ _ h => h.1) fun hbranches => ?_
  have hlast := (tracks_openedLast source source' hm hw n helse).optional fun x y h => h.elim
    (fun h => h.nil_iff) fun h => by simp [h.ne_nil hne]
  refine (hlast.narrow fun _ _ h => h.2).map ?_
  -- the last alternative may be the one that is opened, or there is none and the condition ends
  -- here
  rintro _ _ x y (⟨rfl, rfl, h | h⟩ | ⟨last, last', rfl, rfl, hlast, h⟩)
  · exact .inl ⟨alike_choice (.cons ⟨hl, hbody⟩ hbranches) .none offset offset', h⟩
  · exact .inr h
  · exact .inl ⟨alike_choice (.cons ⟨hl, hbody⟩ hbranches) (.some hlast) offset offset', h⟩

variable (m source source' w) in
omit hm hw in
/-- How arms may end. -/
def ArmsEnd (opening : List Char) (as as' : List (Option Lexeme × List Surface))
    (x y : List Char) : Prop :=
  (List.Forall₂ (AlikeArm source source') as as' ∧ m.Settled x y) ∨ m.Opened w opening x y

theorem tracks_openedArm {pattern left right : List Char} (hpattern : IsPattern pattern left)
    (hright : IsGap right) : Tracks 1 (m.Opened w (armOpening pattern left right))
      (style (nodesWithin n)).matchArm (style (nodesWithin n)).matchArm
      fun a a' x y => AlikeArm source source' a a' ∧ m.Settled x y := by
  obtain ⟨code, htakes⟩ := hpattern.takes
  have hread (t : List Char) : armPattern.Takes pattern
      ((left ++ (['=', '>'] ++ (right ++ ['{']))) ++ t) (MeansPattern · code) := by
    simpa using htakes (right ++ '{' :: t)
  refine .named _ ((tracks_of_takes (Nat.zero_le _) hread).after fun p p' => ?_)
  refine .given (fun _ _ h => And.intro h.1 h.2.1) fun hp => .narrow ?_ fun _ _ h => h.2.2
  refine (tracks_of_takes (Nat.zero_le _) fun t => takes_skip hpattern.isGap (by rfl)).after fun _ _ => ?_
  refine Tracks.narrow ?_ fun _ _ h => h.2.2
  refine tracks_ahead (Nat.succ_le_succ (Nat.zero_le 1)) (fun t => Takes.token (literal_append _ _))
    fun _ _ _ _ => ?_
  refine tracks_ahead (Nat.zero_le _) (fun t => takes_skip hright (by rfl)) fun _ _ _ _ => ?_
  refine (tracks_openBlock source source' hm hw n).relax.bind fun b b' => ?_
  refine .given (fun _ _ h => h.1) fun hbody => ?_
  exact (tracks_armEnd (E := AlikeArm source source') ⟨sameCode_of_meansPattern hp.1 hp.2, hbody⟩).narrow fun _ _ h => h.2

/-- White space in the body of an arm. -/
theorem tracks_openedMatch {gap subject inner arms pattern left right : List Char}
    (hsubject : IsTest gap subject) (hinner : IsGap inner) (hpattern : IsPattern pattern left)
    (hright : IsGap right) (harms : Precedes (fun n => (style (nodesWithin n)).matchArm) MeansArm
      (armOpening pattern left right) arms) (hn : arms.length ≤ n)
    (hfirm : ∀ t, Stops isSpace (arms ++ (pattern ++ t))) :
    Tracks 1 (m.Opened w (['@', 'm', 'a', 't', 'c', 'h'] ++ (gap ++ (subject ++ (['{'] ++ (inner ++
      (arms ++ armOpening pattern left right)))))))
      (style (nodesWithin n)).matchBlock (style (nodesWithin n)).matchBlock fun s s' x y =>
        AlikeNode source source' s s' ∧ m.Near x y ∧ ∃ o l arms, s' = .cases o l arms := by
  have hblock : Tracks 1 m.Near (block (nodesWithin n)) (block (nodesWithin n))
      fun b b' x y => AlikeBody source source' b b' ∧ m.Near x y :=
    tracks_block (tracks_nodesWithin n)
  have hopening : armOpening pattern left right ≠ [] := by simp [armOpening]
  have hlast {x y : List Char} (hxy : m.Opened w (armOpening pattern left right) x y) :
      Repeats (style (nodesWithin n)).matchArm (style (nodesWithin n)).matchArm
        (m.ArmsEnd source source' w (armOpening pattern left right)) x y := by
    refine Repeats.step (K := fun _ _ as as' x y =>
      List.Forall₂ (AlikeArm source source') as as' ∧ m.Settled x y) (hxy.ne_nil hopening).1
      (hxy.ne_nil hopening).2 (tracks_openedArm hm hw n hpattern hright hxy) (.inr hxy)
      (fun h _ _ => ?_) fun _ _ h hrest _ => .inl ⟨.cons h.1 hrest.1, hrest.2⟩
    exact (tracks_matchArm hblock).repeats (fun _ _ h => h.near.nil_iff) (fun _ _ _ _ h => h.2)
      (fun _ _ h => ⟨.nil, h⟩) (fun h hrest _ => ⟨.cons h.1 hrest.1, hrest.2⟩) h.2
  have hmany : Tracks 0 (m.Opened w (arms ++ armOpening pattern left right))
      (many (style (nodesWithin n)).matchArm) (many (style (nodesWithin n)).matchArm)
      (m.ArmsEnd source source' w (armOpening pattern left right)) := by
    refine fun x y hxy => (repeats_precedes (E := AlikeArm source source') harms hn alikeArm_of_means ?_ hlast
      hxy).many
    rintro a a' as as' x y h (⟨hrest, hxy⟩ | hstuck)
    · exact .inl ⟨.cons h hrest, hxy⟩
    · exact .inr hstuck
  refine .named _ (.after .offset fun offset offset' => ?_)
  refine tracks_test _ (by decide) hsubject ⟨_, rfl⟩ fun l l' hl => ?_
  refine tracks_ahead (Nat.zero_le _) (fun t => Takes.scan (literal_append _ _)) fun _ _ _ _ => ?_
  refine tracks_ahead (Nat.zero_le _) (fun t => takes_skip hinner ?_) fun _ _ _ _ => ?_
  · simpa [armOpening] using hfirm (left ++ '=' :: '>' :: (right ++ '{' :: t))
  refine hmany.bind fun as as' => ?_
  rintro x y (⟨harms, hxy⟩ | hstuck) o o'
  · refine Tracks.map (.named _ tracks_brace.relax) (fun _ _ x y h => ⟨?_, h, _, _, _, rfl⟩) hxy o o'
    exact alike_cases hl harms offset offset'
  · obtain ⟨r, -, -, rfl, rfl⟩ := hstuck
    exact .fail ((refuses_closeBrace_arm hpattern right r).bind o)
      ((refuses_closeBrace_arm hpattern right (w ++ r)).bind o')

end

end Seam

end Stencil.Source
