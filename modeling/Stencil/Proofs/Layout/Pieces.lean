import Stencil.Proofs.Agreement.Balanced
import Stencil.Proofs.Layout.Reread
import Stencil.Proofs.Layout.Seam

/-!
# Expressions in front of a closing brace

A run of code goes on over white space, so an expression that reaches the brace has the white space
at its end on the one side. There it is cut off, unless the brace itself belongs to the expression:
that takes a second brace behind it, and nothing but white space is left then (`Torn`).
-/

namespace Stencil.Source

open Text Matcher

namespace Seam

variable {m : Seam} {α β : Type} {k l : Nat}

/-! ## Tokens -/

theorem tracks_same {scanner : Scanner} (hidle : IgnoresIdle scanner) (hfits : Fits scanner) :
    Tracks 0 m.Near (scan scanner) (scan scanner) fun l l' x y => l.chars = l'.chars ∧ m.Near x y :=
  (tracks_scan hidle hfits fun _ => Nat.zero_le _).mono fun _ _ _ _ h => ⟨h.1, h.2.2.1⟩

theorem tracks_literal {c : Char} {word : List Char} (hword : IsBusy (c :: word)) :
    Tracks 1 m.Near (scan (literal (c :: word))) (scan (literal (c :: word))) fun _ _ => m.Near :=
  (tracks_scan (literal_ignores hword) (fits_literal _) fun h => by
    rw [literal] at h
    split at h
    · cases h
      simp
    · cases h).mono fun _ _ _ _ h => h.2.2.1

theorem tracks_keyword {c : Char} {word : List Char} (hword : IsBusy (c :: word)) :
    Tracks 1 m.Near (scan (keyword (c :: word))) (scan (keyword (c :: word))) fun _ _ => m.Near :=
  (tracks_scan (keyword_ignores hword) (fits_keyword _) fun h => by
    rw [keyword] at h
    split at h
    · cases h
      simp
    · cases h).mono fun _ _ _ _ h => h.2.2.1

/-! ## Pieces of expressions -/

theorem settled_tail : m.Settled m.tail m.tail :=
  .inr ⟨rfl, List.suffix_refl _⟩

theorem tracks_stringPiece : Tracks 1 m.Near stringPiece stringPiece fun _ _ => m.Near := by
  have hread {text : List Char} {k : Nat} (h : exprString text = some k) : 1 ≤ k := by
    unfold exprString at h
    split at h
    · obtain ⟨i, -, rfl⟩ := Option.map_eq_some_iff.mp h
      omega
    · obtain ⟨i, -, rfl⟩ := Option.map_eq_some_iff.mp h
      omega
    · cases h
  refine (Tracks.named _ (tracks_scan exprString_ignores fits_exprString hread)).bind fun _ _ => ?_
  exact .pure fun _ _ h => h.2.2.1

theorem shuns_stringPiece : stringPiece.Shuns :=
  ((shuns_scan exprString_ignores rfl).named _).bind

theorem shuns_bracketed (rule : Rule) {opening : Char} (closing : Char) (body : Matcher Unit)
    (h : isIdle opening = false) : (bracketed rule opening closing body).Shuns :=
  (shuns_literal (List.forall_mem_singleton.mpr h)).bind.named _

theorem tracks_closing {closing : Char} (h : isIdle closing = false ∨ closing = '}') :
    Tracks 1 m.Settled (scan (literal [closing])) (scan (literal [closing])) fun _ _ => m.Near := by
  rcases h with h | rfl
  · exact (tracks_literal (List.forall_mem_singleton.mpr h)).narrow fun _ _ h => h.near
  · exact tracks_brace

section

variable {N N' : List Char → List Char → Prop} {inner inner' : Matcher Unit}

theorem tracks_bracketed (rule : Rule) {opening closing : Char}
    (hclosing : isIdle closing = false ∨ closing = '}')
    (hopening : Tracks 1 N (scan (literal [opening])) (scan (literal [opening])) fun _ _ => N')
    (h : Tracks 0 N' inner inner' fun _ _ => m.Settled) :
    Tracks 1 N (bracketed rule opening closing inner) (bracketed rule opening closing inner')
      fun _ _ => m.Near :=
  .named _ (hopening.bind fun _ _ => h.bind fun _ _ =>
    (tracks_closing hclosing).relax.map fun _ _ _ _ h => h)

theorem tracks_closedChoices (hN : ∀ x y, N x y → m.Near x y)
    (hopening : ∀ c, isIdle c = false →
      Tracks 1 N (scan (literal [c])) (scan (literal [c])) fun _ _ => N')
    (h : Tracks 0 N' inner inner' fun _ _ => m.Settled) :
    List.Forall₂ (fun p q => Tracks 1 N p q fun _ _ => m.Near) (closedChoices inner)
      (closedChoices inner') :=
  .cons (tracks_stringPiece.narrow hN)
    (.cons (tracks_bracketed _ (.inl (by decide)) (hopening _ (by decide)) h)
      (.cons (tracks_bracketed _ (.inl (by decide)) (hopening _ (by decide)) h) .nil))

end

theorem shuns_closedChoices (inner : Matcher Unit) : ∀ p ∈ closedChoices inner, p.Shuns := by
  simp only [closedChoices, List.forall_mem_cons]
  exact ⟨shuns_stringPiece, shuns_bracketed _ _ _ (by decide), shuns_bracketed _ _ _ (by decide),
    List.forall_mem_nil _⟩

theorem tracks_run (rule : Rule) {scanner : Scanner} (hspan : IsSpan scanner) :
    Tracks 1 m.Settled (do let _ ← token rule scanner) (do let _ ← token rule scanner)
      fun _ _ => m.Near :=
  Tracks.map (.named _ (tracks_span hspan)) fun _ _ _ _ h => h.1.near

/-- Where only the last choice goes on over white space, all the choices do. -/
theorem absorbs_choices {before : List (Matcher α)} {before' : List (Matcher β)} (rule : Rule)
    {scanner : Scanner} (hspan : IsSpan scanner) (f : Lexeme → α) (g : Lexeme → β)
    (hbefore : ∀ p ∈ before, p.Shuns) (hbefore' : ∀ p ∈ before', p.Shuns) :
    m.Absorbs (firstOf (before ++ [do return f (← token rule scanner)]))
      (firstOf (before' ++ [do return g (← token rule scanner)]))
      fun b => ∃ l, b = g l ∧ l.chars = m.gap where
  refuses := Refuses.all (List.forall_mem_append.mpr ⟨fun p hp => hbefore p hp _ isIdle_tail,
    List.forall_mem_singleton.mpr (Refuses.token (span_tail hspan).1).bind⟩)
  refuses' := Refuses.all (List.forall_mem_append.mpr ⟨fun p hp => hbefore' p hp _ isIdle_tail,
    List.forall_mem_singleton.mpr (Refuses.token (span_tail hspan).1).bind⟩)
  takes hne := Refuses.firstOf_append (fun p hp => hbefore' p hp _ isIdle_gap_tail)
    (Takes.firstOf ((Takes.token ((span_tail hspan).2 hne)).map fun l hl => ⟨l, rfl, hl⟩))

/-- Pieces are repeated up to text that is settled. -/
theorem tracks_many_pieces {before before' : List (Matcher Unit)} (rule : Rule) {scanner : Scanner}
    (hspan : IsSpan scanner) (hbefore : ∀ p ∈ before, p.Shuns) (hbefore' : ∀ p ∈ before', p.Shuns)
    (h : List.Forall₂ (fun p q => Tracks 1 (Within m.Settled k l) p q fun _ _ => m.Near)
      before before') :
    Tracks 0 (Within m.Near k l) (many (firstOf (before ++ [do let _ ← token rule scanner])))
      (many (firstOf (before' ++ [do let _ ← token rule scanner]))) fun _ _ => m.Settled := by
  have hlast : Tracks 1 (Within m.Settled k l) (do let _ ← token rule scanner)
      (do let _ ← token rule scanner) fun _ _ => m.Near :=
    (tracks_run rule hspan).narrow fun _ _ h => h.1
  exact fun x y hxy => (repeats_absorbing (J := fun _ _ _ _ => m.Settled)
    (.firstOf (List.rel_append h (.cons hlast .nil))) (fun _ _ _ _ h => h)
    (absorbs_choices rule hspan (fun _ => ()) (fun _ => ()) hbefore hbefore')
    (fun _ _ h => h) (fun _ _ _ => settled_tail) (fun _ _ _ h _ => h) hxy).many

theorem abreast_balanced_nil (k l o o' : Nat) :
    Abreast 0 (balanced k) (balanced l) (fun _ _ => m.Settled) o o' [] [] := by
  have hnil (k o : Nat) : (balanced k ⟨o, []⟩).result = some ((), ⟨o, []⟩) := by
    cases k <;> rfl
  exact .read (s := []) (t := []) (Nat.le_refl _) (Nat.le_refl _) (hnil k o) (hnil l o')
    (.inr ⟨rfl, List.nil_suffix⟩)

/-- Balanced text leaves text that is settled, however deep it may nest. -/
theorem tracks_balanced (k l : Nat) :
    Tracks 0 (Within m.Near k l) (balanced k) (balanced l) fun _ _ => m.Settled := by
  induction k generalizing l with
  | zero =>
    rintro x y ⟨hxy, hx, -⟩ o o'
    obtain rfl := List.length_eq_zero_iff.mp (Nat.le_zero.mp hx)
    obtain rfl := hxy.nil_iff.mp rfl
    exact abreast_balanced_nil 0 l o o'
  | succ k ih =>
    cases l with
    | zero =>
      rintro x y ⟨hxy, -, hy⟩ o o'
      obtain rfl := List.length_eq_zero_iff.mp (Nat.le_zero.mp hy)
      obtain rfl := hxy.nil_iff.mpr rfl
      exact abreast_balanced_nil (k + 1) 0 o o'
    | succ l =>
      have hopening (c : Char) (hc : isIdle c = false) :
          Tracks 1 (Within m.Settled (k + 1) (l + 1)) (scan (literal [c])) (scan (literal [c]))
            fun _ _ => Within m.Near k l :=
        ((tracks_literal (List.forall_mem_singleton.mpr hc)).narrow fun _ _ h => h.near).within k l
      have hshuns (inner : Matcher Unit) : ∀ p ∈ closedChoices inner ++
          [bracketed .exprBraces '{' '}' inner], p.Shuns :=
        List.forall_mem_append.mpr ⟨shuns_closedChoices inner,
          List.forall_mem_singleton.mpr (shuns_bracketed _ _ _ (by decide))⟩
      have hpieces := List.rel_append
        (tracks_closedChoices (fun _ _ h => h.1.near) hopening (ih l))
        (.cons (tracks_bracketed .exprBraces (.inr rfl) (hopening '{' (by decide)) (ih l)) .nil)
      rw [balanced_succ, balanced_succ]
      exact (tracks_many_pieces _ isSpan_code (hshuns _) (hshuns _) hpieces).map fun _ _ _ _ h => h

theorem tracks_exprBody : Tracks 0 m.Near exprBody exprBody fun _ _ => m.Settled := by
  intro x y hxy o o'
  rcases tracks_balanced x.length y.length ⟨hxy, Nat.le_refl _, Nat.le_refl _⟩ o o' with
    ⟨hp, hq⟩ | ⟨hs, ht, hp, hq, h⟩
  · exact .fail hp hq
  · exact .read hs ht hp hq h

/-! ## Expressions that nothing idle may follow -/

/-- Strings, brackets and runs of code. -/
theorem tracks_pieces {rule : Rule} {scanner : Scanner} (hspan : IsSpan scanner) :
    Tracks 1 m.Settled (lexeme (some1 (firstOf (closedPieces ++ [do let _ ← token rule scanner]))))
      (lexeme (some1 (firstOf (closedPieces ++ [do let _ ← token rule scanner]))))
      (m.Agrees fun l l' => l.chars = l'.chars) := by
  have hclosed : List.Forall₂ (fun p q => Tracks 1 m.Settled p q fun _ _ => m.Near) closedPieces
      closedPieces :=
    tracks_closedChoices (fun _ _ h => h.near) (fun c hc =>
      (tracks_literal (List.forall_mem_singleton.mpr hc)).narrow fun _ _ h => h.near) tracks_exprBody
  have hfirst := Tracks.firstOf (List.rel_append hclosed (.cons (tracks_run rule hspan) .nil))
  refine tracks_lexeme (fun _ _ h => h.near) (Tracks.some1 (fun _ _ h => h.near.nil_iff)
    hfirst fun _ _ => .of_within fun k l => ?_)
  have hpieces := tracks_many_pieces (k := k) (l := l) rule hspan
    (shuns_closedChoices exprBody) (shuns_closedChoices exprBody)
    (hclosed.imp fun _ _ h => h.narrow fun _ _ h => h.1)
  exact hpieces.mono fun _ _ _ _ h => h.near

theorem tracks_condition : Tracks 0 m.Settled condition condition
    (m.Agrees fun l l' => l.chars = l'.chars) :=
  .named _ (tracks_pieces isSpan_code).relax

theorem tracks_patternExpr : Tracks 1 m.Settled patternExpr patternExpr
    (m.Agrees fun l l' => l.chars = l'.chars) :=
  .named _ (tracks_pieces isSpan_patternCode)

/-- White space that has to be there, and then a condition. -/
theorem shuns_spaced {f : Lexeme → Matcher α} :
    (space >>= fun _ => condition >>= f).Shuns := by
  intro v hv o
  rw [result_bind]
  rcases hr : (space ⟨o, v⟩).result with _ | ⟨l, c⟩
  · rfl
  rw [space, token, result_named, result_scan] at hr
  obtain ⟨n, hn, hr⟩ := Option.map_eq_some_iff.mp hr
  cases hr
  have hlength : n = spaces v := by
    simp only [spaces1, run1] at hn
    split at hn
    · cases hn
    · exact (Option.some.inj hn).symm
  subst hlength
  have hcondition : condition.Refuses (v.drop (spaces v)) := by
    rcases drop_spaces_idle hv with h | ⟨u, h⟩
    · rw [h]
      exact fun _ => rfl
    · rw [h]
      refine Refuses.named _ (Refuses.lexeme (Refuses.some1 (Refuses.all ?_)))
      exact List.forall_mem_append.mpr ⟨refuses_closedPieces (by simp [IsFlat]) u,
        List.forall_mem_singleton.mpr (Refuses.token (by rfl)).bind⟩
  exact hcondition.bind _

/-! ## Expressions in braces -/

/-- There is white space, the texts are the same, and there is no brace in them: an expression has
taken the one behind the brace that the white space stands in front of. -/
def Torn (m : Seam) (x y : List Char) : Prop :=
  m.gap ≠ [] ∧ m.idle ≠ [] ∧ x = y ∧ x <:+ m.idle ∧ '}' ∉ x

theorem Torn.isIdle {x y : List Char} (h : m.Torn x y) : IsIdle x :=
  m.isIdle_idle.of_suffix h.2.2.2.1

theorem Torn.near {x y : List Char} (h : m.Torn x y) : m.Near x y :=
  .inr ⟨h.2.2.1, h.2.2.2.1.trans (List.suffix_cons _ _)⟩

theorem sameCode_of_settled {l l' : Lexeme} {x y : List Char}
    (h : m.Near (l.chars ++ x) (l'.chars ++ y)) (hxy : m.Settled x y) :
    SameCode l l' ∨ (m.gap ≠ [] ∧ x = y ∧ x <:+ m.idle) := by
  rcases hxy with ⟨v, -, -, rfl, rfl⟩ | ⟨rfl, hx⟩
  · exact .inl (congrArg trim (eq_of_near h))
  by_cases hgap : m.gap = []
  · left
    rcases h with ⟨u, -, hs, ht⟩ | ⟨heq, -⟩
    · rw [hgap, List.nil_append, ← hs] at ht
      exact congrArg trim (List.append_cancel_right ht).symm
    · exact congrArg trim (List.append_cancel_right heq)
  -- the code ends at the brace of the body, with the white space in it, or goes on behind that
  rcases List.suffix_cons_iff.mp hx with rfl | hx
  · left
    rcases h with ⟨u, -, hs, ht⟩ | ⟨heq, -⟩
    · have hs := List.append_cancel_right hs
      have ht : l'.chars = u ++ m.gap := List.append_cancel_right (ht.trans (List.append_assoc ..).symm)
      have hblank : ∀ c ∈ m.gap, isBlank c = true := fun c hc =>
        isBlank_of_isSpace (m.isGap_gap c hc)
      show trim _ = trim _
      rw [hs, ht, trim, trim, trimEnd_trimStart, trimEnd_trimStart, trimEnd_blank hblank]
    · exact congrArg trim (List.append_cancel_right heq)
  · exact .inr ⟨hgap, rfl, hx⟩

/-- The brace that closes an expression is the next one. -/
theorem tracks_codeEnd {E : Prop} : Tracks 1
    (fun x y => m.Settled x y ∧ (E ∨ (m.gap ≠ [] ∧ x = y ∧ x <:+ m.idle))) (scan (literal ['}']))
    (scan (literal ['}'])) fun _ _ x y => m.Near x y ∧ (E ∨ m.Torn x y) := by
  rintro x y ⟨hxy, hE | ⟨hgap, rfl, hx⟩⟩ o o'
  · exact (tracks_brace.mono fun _ _ _ _ h => ⟨h, .inl hE⟩) hxy o o'
  · rcases x with _ | ⟨c, x⟩
    · exact .fail rfl rfl
    by_cases hc : '}' = c
    · subst hc
      have hrest : x <:+ m.idle := (List.suffix_cons _ _).trans hx
      -- there is at most one more brace, and this is it
      have hcount : '}' ∉ x := by
        have hle := (hx.sublist.count_le '}').trans m.count_le
        rw [List.count_cons_self] at hle
        exact List.count_eq_zero.mp (by omega)
      have hne : m.idle ≠ [] := by
        rintro hnil
        rw [hnil] at hx
        cases List.suffix_nil.mp hx
      exact abreast_scan (s := ['}']) (t := ['}']) (literal_append _ _) (literal_append _ _)
        (Nat.le_refl _) (Nat.le_refl _)
        ⟨.inr ⟨rfl, hrest.trans (List.suffix_cons _ _)⟩, .inr ⟨hgap, hne, rfl, hrest, hcount⟩⟩
    · exact .fail (Refuses.scan (literal_ne hc _ _) o) (Refuses.scan (literal_ne hc _ _) o')

theorem tracks_braced : Tracks 1 m.Near Rsx.braced Rsx.braced
    fun l l' x y => m.Near x y ∧ (SameCode l l' ∨ m.Torn x y) := by
  have hbody : Tracks 0 m.Near (lexeme exprBody) (lexeme exprBody)
      fun l l' x y => m.Settled x y ∧ (SameCode l l' ∨ (m.gap ≠ [] ∧ x = y ∧ x <:+ m.idle)) :=
    tracks_exprBody.lexeme.mono fun _ _ _ _ ⟨hnear, _, _, h⟩ => ⟨h, sameCode_of_settled hnear h⟩
  exact .named _ ((tracks_literal (by decide)).bind fun _ _ => hbody.bind fun _ _ =>
    (Tracks.named _ tracks_codeEnd).relax.map fun _ _ _ _ h => h)

end Seam

end Stencil.Source
