import Stencil.Proofs.Agreement.ReadsOnly
import Stencil.Proofs.Grammar.LoopNames

/-!
# The heads of loops

What the grammar has read where it found a loop: the word, maybe a parenthesis, the target, and the
word in front of the source. An account says what was read together with the value and with what
follows, since a comment has to be ended by a newline only where the text goes on.
-/

namespace Stencil.Source

open Text Matcher

/-! ## Scanners -/

theorem isGap_spaces (text : List Char) : IsGap (text.take (spaces text)) := by
  intro c hc
  rw [spaces, take_run] at hc
  exact List.mem_takeWhile_imp hc

theorem isVariable_run {c : Char} (hc : isNameHead c) (text : List Char) :
    IsVariable (c :: text.take (run isWord text)) := by
  refine ⟨c, _, rfl, hc, fun d hd => ?_⟩
  rw [take_run] at hd
  exact List.mem_takeWhile_imp hd

theorem nameList_namesRest (n : Nat) (text : List Char) : ∀ {name : List Char}, IsVariable name →
    ∃ names, NameList (name :: names) (name ++ text.take (namesRest n text)) := by
  fun_induction namesRest n text with
  | case2 n text before rest hdrop after c more hmore hhead tail =>
    rename_i ih
    intro name hname
    obtain ⟨names, hnames⟩ := ih (isVariable_run hhead more)
    have hsplit : text.take (before + 1 + after + 1 + tail + namesRest n (more.drop tail)) =
        text.take before ++ ',' :: (rest.take after ++
          ((c :: more.take tail) ++ (more.drop tail).take (namesRest n (more.drop tail)))) := by
      have hlength : before + 1 + after + 1 + tail + namesRest n (more.drop tail) =
        before + (after + (tail + namesRest n (more.drop tail) + 1) + 1) := by omega
      rw [hlength, List.take_add, hdrop, List.take_succ_cons, List.take_add, hmore,
        List.take_succ_cons, List.take_add, List.cons_append]
    refine ⟨(c :: more.take (run isWord more)) :: names, ?_⟩
    rw [hsplit, ← List.append_assoc]
    exact .more hname (isGap_spaces text) (isGap_spaces rest) hnames
  | _ =>
    intro name hname
    exact ⟨[], by rw [List.take_zero, List.append_nil]; exact .last hname⟩

/-- The scanner takes names with commas between them. -/
theorem nameList_eq_some {text : List Char} {n : Nat} (h : nameList text = some n) :
    ∃ names, NameList names (text.take n) := by
  unfold nameList at h
  split at h
  · cases h
  next c rest =>
  split at h
  · next hhead =>
    cases h
    obtain ⟨names, hnames⟩ := nameList_namesRest rest.length (rest.drop (run isWord rest))
      (isVariable_run hhead rest)
    refine ⟨(c :: rest.take (run isWord rest)) :: names, ?_⟩
    rw [Nat.add_assoc, Nat.add_comm, List.take_succ_cons, List.take_add]
    exact hnames
  · cases h

theorem skipped_of_gap {d : Dialect} {gap : List Char} (h : IsGap gap) : Skipped d gap := by
  induction gap with
  | nil => exact .nil
  | cons c gap ih =>
    obtain ⟨hc, hgap⟩ := List.forall_mem_cons.mp h
    exact .space hc (ih hgap)

/-- White space and comments, if something follows; the first comment may have begun before. -/
theorem skipped_spacesAndComments (comment : Bool) (text : List Char) :
    text.drop (spacesAndComments comment text) ≠ [] →
      (comment = false → Skipped .maud (text.take (spacesAndComments comment text))) ∧
      (comment = true → ∃ line gap, '\n' ∉ line ∧ Skipped .maud gap ∧
        text.take (spacesAndComments comment text) = line ++ '\n' :: gap) := by
  fun_induction spacesAndComments comment text with
  | case1 comment => exact fun h => absurd rfl h
  | case2 comment rest ih =>
    intro h
    rw [Nat.add_comm] at h ⊢
    -- slashes inside of a comment belong to its line
    obtain ⟨line, gap, hline, hgap, htake⟩ := (ih h).2 rfl
    rw [List.take_succ_cons, List.take_succ_cons, htake]
    refine ⟨fun _ => .comment rfl hline hgap, fun _ => ?_⟩
    exact ⟨'/' :: '/' :: line, gap, by simpa using hline, hgap, rfl⟩
  | case3 c rest _ ih =>
    intro h
    rw [Nat.add_comm, List.drop_succ_cons] at h
    rw [Nat.add_comm, List.take_succ_cons]
    refine ⟨fun h => absurd h Bool.noConfusion, fun _ => ?_⟩
    by_cases hc : c = '\n'
    · subst hc
      exact ⟨[], _, List.not_mem_nil, (ih h).1 rfl, rfl⟩
    · obtain ⟨line, gap, hline, hgap, htake⟩ := (ih h).2 (by simpa using hc)
      rw [htake]
      refine ⟨c :: line, gap, ?_, hgap, rfl⟩
      rw [List.mem_cons, not_or]
      exact ⟨Ne.symm hc, hline⟩
  | case4 comment c rest _ hcomment hspace =>
    rename_i ih
    intro h
    rw [Nat.add_comm, List.drop_succ_cons] at h
    rw [Nat.add_comm, List.take_succ_cons]
    exact ⟨fun _ => .space hspace ((ih h).1 rfl), fun hin => absurd hin hcomment⟩
  | case5 comment c rest _ hcomment hspace =>
    intro _
    exact ⟨fun _ => .nil, fun hin => absurd hin hcomment⟩

/-! ## Heads -/

/-- What stands between the word of a loop and its source: the target and the word in front of the
source, maybe behind a parenthesis. -/
inductive LoopHeader (d : Dialect) (target : List Char) : List Char → Prop
  | plain {before after : List Char} (hbefore : IsGap before ∧ before ≠ [])
      (hafter : IsGap after ∧ after ≠ []) :
      LoopHeader d target (target ++ before ++ "in".toList ++ after)
  | enclosed {inner before after : List Char} (hinner : Skipped d inner)
      (hbefore : IsGap before ∧ before ≠ []) (hafter : IsGap after ∧ after ≠ []) :
      LoopHeader d target ('(' :: (inner ++ target ++ before ++ "in".toList ++ after))

/-- The text begins like a loop with these names in its target. -/
structure IsHeaded (d : Dialect) (names : List (List Char)) (margins target text : List Char) :
    Prop where
  isTarget : Target d names margins target
  exists_header : ∃ header, LoopHeader d target header ∧ header <+: text

/-- The text begins like a loop with this target. -/
def Heads (d : Dialect) (target text : List Char) : Prop :=
  ∃ names margins, IsHeaded d names margins target text

theorem Heads.append {d : Dialect} {target text : List Char} (h : Heads d target text) (more : List Char) :
    Heads d target (text ++ more) := by
  obtain ⟨names, margins, htarget, header, hheader, hprefix⟩ := h
  exact ⟨names, margins, htarget, header, hheader, hprefix.trans (List.prefix_append ..)⟩

theorem Heads.ne_nil {d : Dialect} {target text : List Char} (h : Heads d target text) : text ≠ [] := by
  rintro rfl
  obtain ⟨names, margins, -, header, hheader, hprefix⟩ := h
  rw [List.prefix_nil] at hprefix
  subst hprefix
  generalize hnil : ([] : List Char) = header at hheader
  cases hheader <;> simp at hnil

/-- At the offset of the source there is the word of a loop, and what follows begins like a loop
with these names in its target. -/
def IsLoop (d : Dialect) (source : List Char) (offset : Nat) (names : List (List Char))
    (margins target : List Char) : Prop :=
  ∃ gap text, Skipped d gap ∧ IsHeaded d names margins target text ∧
    source.drop offset = "@for".toList ++ (gap ++ text)

/-! ### Matching heads -/

theorem accounts_literal (word : List Char) : (scan (literal word)).Accounts fun _ s _ => s = word :=
  Accounts.scan (L := fun s _ => s = word) (fits_literal word) literal_eq_some

theorem accounts_word (rule : Rule) (word : List Char) :
    (token rule (keyword word)).Accounts fun _ s _ => s = word :=
  .named rule (Accounts.scan (L := fun s _ => s = word) (fits_keyword word) take_keyword)

theorem run1_ne_nil {p : Char → Bool} {text : List Char} {n : Nat} (h : run1 p text = some n) :
    text.take n ≠ [] := by
  intro hnil
  have hlength := congrArg List.length hnil
  rw [List.length_take_of_le (fits_run1 p text n h), List.length_nil] at hlength
  subst hlength
  unfold run1 at h
  dsimp only at h
  split at h
  · cases h
  · next hne => exact hne (by rw [Option.some.inj h]; rfl)

theorem accounts_space : space.Accounts fun _ s _ => IsGap s ∧ s ≠ [] := by
  refine .named _ (Accounts.scan (L := fun s _ => IsGap s ∧ s ≠ []) (fits_run1 _) fun h => ?_)
  exact ⟨run1_eq_some h, run1_ne_nil h⟩

theorem accounts_names : (token .nameList nameList).Accounts fun _ s _ => ∃ names, NameList names s :=
  .named _ (Accounts.scan (L := fun s _ => ∃ names, NameList names s) fits_nameList
    nameList_eq_some)

namespace ControlStyle

variable {style : ControlStyle} {d : Dialect}

/-- What the style skips is what the dialect lets stand, where the text goes on. -/
def Skips (style : ControlStyle) (d : Dialect) : Prop :=
  style.skip.Accounts fun _ s t => t ≠ [] → Skipped d s

theorem accounts_forTarget (h : style.Skips d) : style.forTarget.Accounts fun l s _ =>
    l.chars = s ∧ ∃ names margins, Target d names margins s := by
  have hnames : Accounts (do let _ ← token .nameList nameList)
      fun _ s _ => ∃ names margins, Target d names margins s := by
    refine accounts_names.bind (M := fun _ _ s _ => s = []) (fun _ => .pure fun _ => rfl) ?_
    rintro _ _ u _ t ⟨names, hnames⟩ rfl
    rw [List.append_nil]
    exact ⟨names, [], .bare hnames⟩
  have hclose : Accounts (do let _ ← scan (literal [')'])) fun _ s _ => s = [')'] := by
    refine (accounts_literal [')']).bind (M := fun _ _ s _ => s = []) (fun _ => .pure fun _ => rfl) ?_
    rintro _ _ _ _ _ rfl rfl
    rfl
  have hafter : Accounts (do style.skip; let _ ← scan (literal [')']))
      fun _ s _ => ∃ after, Skipped d after ∧ s = after ++ [')'] := by
    refine h.bind (fun _ => hclose) ?_
    rintro _ _ u _ t hu rfl
    exact ⟨u, hu (List.cons_ne_nil _ _), rfl⟩
  have hlist : Accounts (do
      let _ ← token .nameList nameList
      style.skip
      let _ ← scan (literal [')'])) fun _ s _ => ∃ names text after,
        NameList names text ∧ Skipped d after ∧ s = text ++ (after ++ [')']) := by
    refine accounts_names.bind (fun _ => hafter) ?_
    rintro _ _ u _ t ⟨names, hnames⟩ ⟨after, hskipped, rfl⟩
    exact ⟨names, u, after, hnames, hskipped, rfl⟩
  have hbefore : Accounts (do
      style.skip
      let _ ← token .nameList nameList
      style.skip
      let _ ← scan (literal [')'])) fun _ s _ => ∃ names before text after, Skipped d before ∧
        NameList names text ∧ Skipped d after ∧ s = before ++ (text ++ (after ++ [')'])) := by
    refine h.bind (fun _ => hlist) ?_
    rintro _ _ u _ t hu ⟨names, text, after, hnames, hskipped, rfl⟩
    exact ⟨names, u, text, after, hu (by simp), hnames, hskipped, rfl⟩
  refine .named _ (.lexeme (.orElse ((accounts_literal ['(']).bind (fun _ => hbefore) ?_) hnames))
  rintro _ _ _ _ t rfl ⟨names, before, text, after, hskipped, hnames, hskipped', rfl⟩
  have htarget := Target.enclosed hskipped hnames hskipped'
  refine ⟨names, before ++ after, ?_⟩
  simpa only [List.cons_append, List.nil_append, List.append_assoc] using htarget

/-- The word in front of the source of a loop, and what comes after it. -/
theorem accounts_in {α : Type} {k : Matcher α} {K : α → List Char → List Char → Prop}
    (hk : k.Accounts K) : Accounts (do
      let _ ← space
      let _ ← wordIn
      let _ ← space
      k) fun a s t => ∃ before after rest, (IsGap before ∧ before ≠ []) ∧
        (IsGap after ∧ after ≠ []) ∧ s = before ++ ("in".toList ++ (after ++ rest)) ∧
        K a rest t := by
  have hafter : Accounts (do let _ ← space; k) fun a s t => ∃ after rest,
      (IsGap after ∧ after ≠ []) ∧ s = after ++ rest ∧ K a rest t := by
    refine accounts_space.bind (fun _ => hk) ?_
    rintro _ _ u v t hu hv
    exact ⟨u, v, hu, rfl, hv⟩
  have hin : Accounts (do let _ ← wordIn; let _ ← space; k) fun a s t => ∃ after rest,
      (IsGap after ∧ after ≠ []) ∧ s = "in".toList ++ (after ++ rest) ∧ K a rest t := by
    refine (accounts_word .wordIn ['i', 'n']).bind (fun _ => hafter) ?_
    rintro _ _ _ _ t rfl ⟨after, rest, hgap, rfl, hrest⟩
    exact ⟨after, rest, hgap, rfl, hrest⟩
  refine accounts_space.bind (fun _ => hin) ?_
  rintro _ _ u _ t hu ⟨after, rest, hgap, rfl, hrest⟩
  exact ⟨u, after, rest, hu, hgap, rfl, hrest⟩

theorem accounts_condition : condition.Accounts fun _ _ _ => True :=
  .of_stays fun _ => stays_condition.staysIn

theorem accounts_forPlain (h : style.Skips d) :
    style.forPlain.Accounts fun header s _ => Heads d header.1.chars s := by
  have hsource (names : Lexeme) : Accounts (do return (names, ← condition))
      fun header _ _ => header.1 = names := by
    refine accounts_condition.bind (M := fun _ header _ _ => header.1 = names)
      (fun _ => .pure fun _ => rfl) ?_
    exact fun _ hnames => hnames
  refine .named _ ((accounts_forTarget h).bind (fun names => accounts_in (hsource names)) ?_)
  rintro names header _ _ t ⟨rfl, ids, margins, htarget⟩
    ⟨before, after, rest, hbefore, hafter, rfl, rfl⟩
  refine ⟨ids, margins, htarget, _, .plain hbefore hafter, rest, ?_⟩
  simp only [List.append_assoc]

theorem accounts_forParen (h : style.Skips d) :
    style.forParen.Accounts fun header s _ => Heads d header.1.chars s := by
  have hsource (names : Lexeme) : Accounts (do
      let source ← condition
      let _ ← closeParen
      return (names, source)) fun header _ _ => header.1 = names := by
    refine accounts_condition.bind (M := fun _ header _ _ => header.1 = names) (fun _ => ?_)
      fun _ hnames => hnames
    refine Accounts.bind (M := fun _ header _ _ => header.1 = names)
      (.of_stays fun _ => stays_mark .closeParen [')']) (fun _ => .pure fun _ => rfl) ?_
    exact fun _ hnames => hnames
  have hnames : Accounts (do
      let names ← style.forTarget
      let _ ← space
      let _ ← wordIn
      let _ ← space
      let source ← condition
      let _ ← closeParen
      return (names, source)) fun header s _ =>
        (∃ names margins, Target d names margins header.1.chars) ∧
          ∃ before after rest, (IsGap before ∧ before ≠ []) ∧ (IsGap after ∧ after ≠ []) ∧
            s = header.1.chars ++ (before ++ ("in".toList ++ (after ++ rest))) := by
    refine (accounts_forTarget h).bind (fun names => accounts_in (hsource names)) ?_
    rintro names header _ _ t ⟨rfl, htarget⟩ ⟨before, after, rest, hbefore, hafter, rfl, rfl⟩
    exact ⟨htarget, before, after, rest, hbefore, hafter, rfl⟩
  have hskipped : Accounts (do
      style.skip
      let names ← style.forTarget
      let _ ← space
      let _ ← wordIn
      let _ ← space
      let source ← condition
      let _ ← closeParen
      return (names, source)) fun header s _ =>
        (∃ names margins, Target d names margins header.1.chars) ∧
          ∃ inner before after rest, Skipped d inner ∧ (IsGap before ∧ before ≠ []) ∧
            (IsGap after ∧ after ≠ []) ∧
            s = inner ++ (header.1.chars ++ (before ++ ("in".toList ++ (after ++ rest)))) := by
    refine h.bind (fun _ => hnames) ?_
    rintro _ header u _ t hu ⟨htarget, before, after, rest, hbefore, hafter, rfl⟩
    exact ⟨htarget, u, before, after, rest, hu (by simp), hbefore, hafter, rfl⟩
  refine .named _ ((accounts_literal ['(']).bind (fun _ => hskipped) ?_)
  rintro _ header _ _ t rfl
    ⟨⟨ids, margins, htarget⟩, inner, before, after, rest, hinner, hbefore, hafter, rfl⟩
  refine ⟨ids, margins, htarget, _, .enclosed hinner hbefore hafter, rest, ?_⟩
  simp only [List.append_assoc, List.cons_append, List.nil_append]

/-- The loop of a surface tree begins like the text. -/
def Opens (d : Dialect) (offset : Nat) (s : Surface) (text : List Char) : Prop :=
  ∃ names items body, s = .each offset names items body ∧ Heads d names.chars text

theorem accounts_body (hs : ∀ source, style.Sits source) (offset : Nat) (names items : Lexeme) :
    Accounts (do style.skip; return Surface.each offset names items (← style.block))
      fun s _ _ => ∃ body, s = .each offset names items body := by
  have hblock : Accounts (do return Surface.each offset names items (← style.block))
      fun s _ _ => ∃ body, s = .each offset names items body :=
    Accounts.bind (M := fun body s _ _ => s = .each offset names items body)
      (.of_stays fun source => (hs source).block.staysIn) (fun _ => .pure fun _ => rfl)
      fun _ hs => ⟨_, hs⟩
  exact Accounts.bind (M := fun _ s _ _ => ∃ body, s = .each offset names items body)
    (.of_stays fun source => (hs source).skip) (fun _ => hblock) fun _ hs => hs

theorem accounts_head (h : style.Skips d) (hs : ∀ source, style.Sits source) (offset : Nat) :
    Accounts (do
      let (names, items) ← named .forHead (orElse style.forParen style.forPlain)
      style.skip
      return Surface.each offset names items (← style.block)) fun s text _ =>
        Opens d offset s text := by
  have hheader : (named .forHead (orElse style.forParen style.forPlain)).Accounts
      fun header text _ => Heads d header.1.chars text :=
    .named _ (.orElse (accounts_forParen h) (accounts_forPlain h))
  refine hheader.bind (fun header => accounts_body hs offset header.1 header.2) ?_
  rintro ⟨names, items⟩ _ u v t hheads ⟨body, rfl⟩
  exact ⟨names, items, body, rfl, hheads.append v⟩

/-- **A loop is what stands at its offset.** -/
theorem isLoop_forBlock (h : style.Skips d) (hs : ∀ source, style.Sits source)
    {source : List Char} {c c' : Cursor} {s : Surface} (hc : c.Sits source)
    (hr : (style.forBlock c).result = some (s, c')) :
    ∃ names items body, s = .each c.offset names items body ∧
      ∃ ids margins, IsLoop d source c.offset ids margins names.chars := by
  have hskip : Accounts (do
      style.skip
      let (names, items) ← named .forHead (orElse style.forParen style.forPlain)
      style.skip
      return Surface.each c.offset names items (← style.block)) fun s text _ =>
        ∃ gap after, Skipped d gap ∧ Opens d c.offset s after ∧ text = gap ++ after := by
    refine h.bind (fun _ => accounts_head h hs c.offset) ?_
    rintro _ s u v t hu hopens
    obtain ⟨names, items, body, rfl, hheads⟩ := hopens
    exact ⟨u, v, hu (by simp [hheads.ne_nil]), ⟨names, items, body, rfl, hheads⟩, rfl⟩
  have hword : Accounts (do
      let _ ← token .wordFor (keyword ['@', 'f', 'o', 'r'])
      style.skip
      let (names, items) ← named .forHead (orElse style.forParen style.forPlain)
      style.skip
      return Surface.each c.offset names items (← style.block)) fun s text _ =>
        ∃ gap after, Skipped d gap ∧ Opens d c.offset s after ∧
          text = "@for".toList ++ (gap ++ after) := by
    refine (accounts_word .wordFor ['@', 'f', 'o', 'r']).bind (fun _ => hskip) ?_
    rintro _ s _ _ t rfl ⟨gap, after, hgap, hopens, rfl⟩
    exact ⟨gap, after, hgap, hopens, rfl⟩
  rw [forBlock, result_named] at hr
  obtain ⟨text, ⟨gap, after, hgap, hopens, rfl⟩, hrest, -⟩ := hword hr
  obtain ⟨names, items, body, rfl, hheads⟩ := hopens
  obtain ⟨ids, margins, hheaded⟩ := hheads.append c'.rest
  refine ⟨names, items, body, rfl, ids, margins, gap, after ++ c'.rest, hgap, hheaded, ?_⟩
  rw [← hc.rest_eq, hrest, List.append_assoc, List.append_assoc]

end ControlStyle

theorem skips_rsx (nodes : Matcher (List Surface)) : (Rsx.style nodes).Skips .rsx := by
  have hgap : (scan fun text => some (spaces text)).Accounts fun _ s _ => IsGap s := by
    refine Accounts.scan (L := fun s _ => IsGap s) (fits_of_some spaces_le) fun h => ?_
    obtain rfl := Option.some.inj h
    exact isGap_spaces _
  refine hgap.bind (M := fun _ _ s _ => s = []) (fun _ => .pure fun _ => rfl) ?_
  rintro _ _ u _ t hu rfl _
  rw [List.append_nil]
  exact skipped_of_gap hu

theorem skips_maud (nodes : Matcher (List Surface)) : (Maud.style nodes).Skips .maud := by
  have hgap : (scan fun text => some (spacesAndComments false text)).Accounts
      fun _ s t => t ≠ [] → Skipped .maud s := by
    refine Accounts.scan (L := fun s t => t ≠ [] → Skipped .maud s)
      (fits_of_some (spacesAndComments_le false)) fun h => ?_
    obtain rfl := Option.some.inj h
    exact fun hrest => (skipped_spacesAndComments false _ hrest).1 rfl
  refine hgap.bind (M := fun _ _ s _ => s = []) (fun _ => .pure fun _ => rfl) ?_
  rintro _ _ u _ t hu rfl ht
  rw [List.append_nil]
  exact hu ht

end Stencil.Source
