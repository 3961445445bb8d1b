import Stencil.Proofs.Layout.Frames

/-!
# White space around bodies

White space at the braces of a body makes no difference to what a source is read as, if the body
does not begin or end like a comment or like a fragment there (`Encloses.read_gaps`). At either
brace only one plain text is trimmed. A comment is none and a fragment may be none, so where they
stand at the brace the white space next to them is what is trimmed, and without it a text behind
them is (`read_comment_gap`).
-/

namespace Stencil.Source

open Text Matcher Rsx

/-! ## Edges -/

theorem beginsHidden_append {t v : List Char} (hv : IsIdle v) (h : BeginsHidden (t ++ v)) :
    BeginsHidden t := by
  have hbegins {word : List Char} (hword : IsBusy word) (h : word <+: t ++ v) :
      word <+: t := by
    rw [← List.isPrefixOf_iff_prefix] at h ⊢
    rwa [isPrefixOf_ignores hword t v hv] at h
  exact h.imp (hbegins (by decide)) (hbegins (by decide))

/-- What ends behind a character that is not in it begins behind it, too. -/
theorem suffix_of_not_mem {word front t : List Char} {c : Char} (hc : c ∉ word)
    (h : word <:+ front ++ [c] ++ t) : word <:+ t := by
  rcases List.suffix_or_suffix_of_suffix h (List.suffix_append _ _) with h' | ⟨p, rfl⟩
  · exact h'
  obtain ⟨q, hq⟩ := h
  rw [← List.append_assoc] at hq
  have hfront := List.append_cancel_right hq
  rcases List.eq_nil_or_concat p with rfl | ⟨p, d, rfl⟩
  · exact List.suffix_refl _
  · rw [List.concat_eq_append, ← List.append_assoc] at hfront
    obtain rfl := List.singleton_inj.mp (List.append_inj' hfront rfl).2
    simp at hc

theorem endsHidden_append {front w t : List Char} (hw : IsGap w)
    (h : EndsHidden (front ++ ['{'] ++ (w ++ t))) : EndsHidden t := by
  have hsuffix {word : List Char} (hbrace : '{' ∉ word) (hword : IsBusy word)
      (h : word <:+ front ++ ['{'] ++ (w ++ t)) : word <:+ t := by
    rcases List.eq_nil_or_concat w with rfl | ⟨w', c, rfl⟩
    · exact suffix_of_not_mem hbrace h
    rw [List.concat_eq_append] at h hw
    have hc : c ∉ word := fun hmem => by
      have hspace := hw.isIdle c (by simp)
      rw [hword c hmem] at hspace
      cases hspace
    refine suffix_of_not_mem hc (show word <:+ front ++ ['{'] ++ w' ++ [c] ++ t from ?_)
    simpa using h
  exact h.imp (hsuffix (by decide) (by decide)) (hsuffix (by decide) (by decide))

/-! ## Reading -/

/-- Any bound on the depth that is large enough will do. -/
theorem readChars_eq_ok {source : List Char} {depth : Nat} (hdepth : source.length < depth)
    {tree : List Node} : readChars .rsx source = .ok tree ↔ ∃ ss c items,
      (document depth ⟨0, source⟩).result = some (ss, c) ∧ readNodes source ss = .ok items ∧
        childNodes items = tree := by
  have hgrammar : document depth ⟨0, source⟩ = grammar .rsx (source.length + 1) ⟨0, source⟩ :=
    grammar_depth .rsx hdepth
  rw [hgrammar, readChars, recognize]
  rcases grammar .rsx (source.length + 1) ⟨0, source⟩ with ⟨_ | ⟨ss, c⟩, furthest⟩
  · simp [bind_eq_ok]
  · simp only [bind_eq_ok, pure_eq_ok, Except.ok.injEq, Option.some.injEq, Prod.mk.injEq]
    constructor
    · rintro ⟨_, rfl, items, hitems, rfl⟩
      exact ⟨ss, c, items, ⟨rfl, rfl⟩, hitems, rfl⟩
    · rintro ⟨_, _, items, ⟨rfl, rfl⟩, hitems, rfl⟩
      exact ⟨ss, rfl, items, hitems, rfl⟩

/-- **White space at the braces of a body makes no difference** to the tree, if the body does not
begin or end like a comment or like a fragment where it is put. In front of the second brace of a
match the body has to end before it, so there may be nothing but the match. -/
theorem Encloses.read_gaps {opening closing t w w' : List Char} (h : Encloses opening closing)
    (hw : IsGap w) (hw' : IsGap w') (hbegin : w = [] ∨ ¬ BeginsHidden t)
    (hend : w' = [] ∨ ¬ EndsHidden t) {tree : List Node}
    (hone : closing = ['}'] ∨ ∃ n, tree = [n])
    (hread : read .rsx (String.ofList (opening ++ (t ++ closing))) = .ok tree) :
    ∃ tree', read .rsx (String.ofList (opening ++ (w ++ (t ++ (w' ++ closing))))) = .ok tree' ∧
      sameNodes tree tree' := by
  obtain ⟨idle, rfl, hidle, hcount⟩ := h.exists_idle
  obtain ⟨front, hfront⟩ := h.exists_front
  simp only [read, String.toList_ofList] at hread ⊢
  generalize hsource : opening ++ (t ++ '}' :: idle) = source at hread
  generalize hbetween : opening ++ (w ++ (t ++ '}' :: idle)) = between
  generalize hsource' : opening ++ (w ++ (t ++ (w' ++ '}' :: idle))) = source'
  have hdepth : source.length < source'.length + 2 := by
    rw [← hsource, ← hsource']
    simp only [List.length_append]
    omega
  have hopening : opening.length ≤ source'.length + 1 := by
    rw [← hsource', List.length_append]
    omega
  obtain ⟨ss, c, items, hdoc, hitems, rfl⟩ := (readChars_eq_ok hdepth).mp hread
  -- in front of the body
  let m : Seam := ⟨[], idle, List.forall_mem_nil _, hidle, hcount⟩
  have hopened : m.Opened w opening source between :=
    ⟨t ++ m.tail, List.suffix_append _ _,
      hbegin.imp_right fun hno hhidden => hno (beginsHidden_append Seam.isIdle_tail hhidden),
      hsource.symm, hbetween.symm⟩
  obtain ⟨ss₁, c₁, hdoc₁, hnodes₁, hcases⟩ :=
    (Seam.tracks_openedDocument source between h rfl rfl hw hopening).exists_read hopened hdoc 0
  obtain ⟨items₁, hitems₁, hsame₁⟩ := hnodes₁ items hitems
  -- behind it
  let m' : Seam := ⟨w', idle, hw', hidle, hcount⟩
  have hallows : m'.Allows (opening ++ (w ++ t)) := hend.imp_right fun hno hhidden =>
    hno (endsHidden_append hw (hfront ▸ hhidden))
  have hnear : m'.Near between source' := by
    refine .inl ⟨_, hallows, ?_, ?_⟩
    · rw [← hbetween]
      simp [m', Seam.tail]
    · rw [← hsource']
      simp [m', Seam.tail]
  obtain ⟨ss₂, c₂, hdoc₂, hnodes₂⟩ :=
    (Seam.tracks_document between source' (source'.length + 2)).exists_read hnear hdoc₁ 0
  obtain hnodes₂ | ⟨⟨o, l, hsplice⟩, hne⟩ := hnodes₂
  · obtain ⟨items₂, hitems₂, hsame₂⟩ := hnodes₂ items₁ hitems₁
    exact ⟨childNodes items₂, (readChars_eq_ok (by omega)).mpr ⟨ss₂, c₂, items₂, hdoc₂, hitems₂, rfl⟩,
      sameNodes_trans (sameNodes_childNodes hsame₁) (sameNodes_childNodes hsame₂)⟩
  -- the brace behind belongs to an expression, so the match is not all that there is
  · obtain hclosing | ⟨n, hn⟩ := hone
    · exact absurd (List.cons.inj hclosing).2 hne
    obtain ⟨o', l', arms, hmatch⟩ := hcases hne
    have hsame := sameNodes_childNodes hsame₁
    rw [hn] at hsame
    rcases hitems : childNodes items₁ with _ | ⟨n', _ | ⟨_, _⟩⟩ <;>
      rw [hitems] at hsame <;> simp [sameNodes] at hsame
    exact absurd hitems (childNodes_ne_single hitems₁ hsplice hmatch n')

set_option maxRecDepth 20000 in
/-- White space at both braces of a condition, of an alternative to it, of a loop and of a match. -/
theorem read_spaced_bodies :
    (∃ tree tree', read .rsx "@if c \x7bx\x7d" = .ok tree ∧
      read .rsx "@if c \x7b x\n\x7d" = .ok tree' ∧ sameNodes tree tree') ∧
    (∃ tree tree', read .rsx "@if c \x7b\x7d @else \x7bx\x7d" = .ok tree ∧
      read .rsx "@if c \x7b\x7d @else \x7b x\n\x7d" = .ok tree' ∧ sameNodes tree tree') ∧
    (∃ tree tree', read .rsx "@for a in e \x7bx\x7d" = .ok tree ∧
      read .rsx "@for a in e \x7b x\n\x7d" = .ok tree' ∧ sameNodes tree tree') ∧
    ∃ tree tree', read .rsx "@match c \x7b_ => \x7bx\x7d \x7d" = .ok tree ∧
      read .rsx "@match c \x7b_ => \x7b x\n\x7d \x7d" = .ok tree' ∧ sameNodes tree tree' := by
  have hgap : IsGap [' '] := by decide
  have hline : IsGap ['\n'] := by decide
  have hspaced {opening closing : List Char} (h : Encloses opening closing) {text text' : String}
      (htext : String.ofList (opening ++ (['x'] ++ closing)) = text)
      (htext' : String.ofList (opening ++ ([' '] ++ (['x'] ++ (['\n'] ++ closing)))) = text')
      (hread : (read .rsx text).toOption.map List.length = some 1) :
      ∃ tree tree', read .rsx text = .ok tree ∧ read .rsx text' = .ok tree' ∧ sameNodes tree tree' := by
    obtain ⟨tree, htree, hlength⟩ := Option.map_eq_some_iff.mp hread
    have hn : read .rsx text = .ok tree := by
      cases hresult : read .rsx text with
      | ok tree' => rw [hresult] at htree; exact congrArg _ (Option.some.inj htree)
      | error _ => rw [hresult] at htree; cases htree
    obtain ⟨tree', hread', hsame⟩ := h.read_gaps hgap hline (.inr (by decide)) (.inr (by decide))
      (.inr (List.length_eq_one_iff.mp hlength)) (htext ▸ hn)
    exact ⟨tree, tree', hn, htext' ▸ hread', hsame⟩
  have htest : IsTest [' '] ['c', ' '] :=
    isTest_balanced hgap (by decide) (.of_code (by simp [isCode])) (fun _ => rfl) (by decide)
  have hblock : IsBlock (Spell.block (Spell.nodes .rsx [])) [] :=
    isBlock_spelled (by rw [NodesCanBeSpelled]; trivial)
  have hname : isIdentifier "e".toList := by decide +kernel
  have hhead := isLoopHead_spelled (show ["a"] ≠ [] by decide) (by decide +kernel)
    (show isIdentifier (Expr.source ⟨"e", .name "e", none, rfl⟩).toList from hname)
  refine ⟨hspaced (.test htest) ?_ ?_ ?_, hspaced (.other htest hblock (isAlternative_last hgap hgap)
    .nil) ?_ ?_ ?_, hspaced (.loop hhead) ?_ ?_ ?_, hspaced (.arm htest (List.forall_mem_nil _)
      (isPattern_wildcard hgap) hgap .nil (fun _ => rfl) hgap) ?_ ?_ ?_⟩
  all_goals decide +kernel

/-- **In front of a comment it does make a difference**: the white space is what is trimmed then,
and not the text behind the comment. -/
theorem read_comment_gap : ¬ ∀ (t w w' : List Char) (tree : List Node), IsGap w → IsGap w' →
    read .rsx (String.ofList ("@if c \x7b".toList ++ (t ++ ['}']))) = .ok tree →
      ∃ tree', read .rsx (String.ofList ("@if c \x7b".toList ++ (w ++ (t ++ (w' ++ ['}']))))) =
        .ok tree' ∧ sameNodes tree tree' := by
  intro hall
  have hread : (match read .rsx "@if c \x7b<!-- n --> x\x7d",
      read .rsx "@if c \x7b <!-- n --> x\x7d" with
    | .ok tree, .ok tree' => !sameNodes tree tree'
    | _, _ => false) = true := by
    decide +kernel
  split at hread
  · next tree tree' htree htree' =>
    have htext : String.ofList ("@if c \x7b".toList ++ ("<!-- n --> x".toList ++ ['}'])) =
        "@if c \x7b<!-- n --> x\x7d" := by decide +kernel
    have htext' : String.ofList ("@if c \x7b".toList ++ ([' '] ++ ("<!-- n --> x".toList ++
        ([] ++ ['}'])))) = "@if c \x7b <!-- n --> x\x7d" := by decide +kernel
    obtain ⟨tree'', hread'', hsame⟩ := hall "<!-- n --> x".toList [' '] [] tree (by decide)
      (by decide) (by rw [htext, htree])
    rw [htext', htree'] at hread''
    cases hread''
    rw [hsame] at hread
    cases hread
  · cases hread

end Stencil.Source
