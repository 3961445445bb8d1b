import Stencil.Value.Arithmetic
import Stencil.Value.Entries
import Stencil.Value.Text

/-!
# Values that are constants

A value stands for a constant if it is the constant in all but its marks (`Value.Stands`). It is of
its kind then, has its texts, and counts as true if and only if the constant does.

Marks matter for one thing only, the keys of a dict: values that are one are alike. A float that is
one with another is equal to it only if it is a number, so the relation asks for that where a float
carries a mark. With it **keys are one if and only if their constants are** (`Stands.alike`), and a
dict gets the same entries, in the same order, from constants and from their values
(`ofEntries_stands`).
-/

namespace Stencil

open Number

/-! ## The constant that a value is -/

mutual

/-- The constant that a value is, marks aside. -/
def Value.constant? : Value → Option Constant
  | .none => some .none
  | .bool b => some (.bool b)
  | .int _ n => some (.int n)
  | .float _ x => some (.float x)
  | .str _ s => some (.str s)
  | .tuple _ items => (Value.constants? items).map .tuple
  | .list _ items => (Value.constants? items).map .list
  | .dict _ entries => (Value.constantEntries? entries).map .dict
  | .set _ [] => some .emptySet
  | _ => Option.none

/-- The constants that values are. -/
def Value.constants? : List Value → Option (List Constant)
  | [] => some []
  | v :: rest => do return (← v.constant?) :: (← Value.constants? rest)

/-- The constants that the entries of a dict are. -/
def Value.constantEntries? : List (Value × Value) → Option (List (Constant × Constant))
  | [] => some []
  | (k, v) :: rest => do
    return (← k.constant?, ← v.constant?) :: (← Value.constantEntries? rest)

end

namespace Value

mutual

/-- A value stands for a constant. -/
inductive Stands : Value → Constant → Prop
  | none : Stands .none .none
  | bool (b : Bool) : Stands (.bool b) (.bool b)
  | int (m : Mark) (n : Int) : Stands (.int m n) (.int n)
  /-- A float that can be one with another is a number. -/
  | float {m : Mark} {x : Float} (h : m.isFresh = false → x == x) : Stands (.float m x) (.float x)
  | str (m : Mark) (s : String) : Stands (.str m s) (.str s)
  | tuple (m : Mark) {vs : List Value} {cs : List Constant} (h : StandAll vs cs) :
      Stands (.tuple m vs) (.tuple cs)
  | list (m : Mark) {vs : List Value} {cs : List Constant} (h : StandAll vs cs) :
      Stands (.list m vs) (.list cs)
  | dict (m : Mark) {vs : List (Value × Value)} {cs : List (Constant × Constant)}
      (h : StandEntries vs cs) : Stands (.dict m vs) (.dict cs)
  | emptySet (m : Mark) : Stands (.set m []) .emptySet

/-- Values stand for constants one by one. -/
inductive StandAll : List Value → List Constant → Prop
  | nil : StandAll [] []
  | cons {v : Value} {c : Constant} {vs : List Value} {cs : List Constant} (hv : Stands v c)
      (hvs : StandAll vs cs) : StandAll (v :: vs) (c :: cs)

/-- The same for the entries of a dict. -/
inductive StandEntries : List (Value × Value) → List (Constant × Constant) → Prop
  | nil : StandEntries [] []
  | cons {k v : Value} {c d : Constant} {vs : List (Value × Value)}
      {cs : List (Constant × Constant)} (hk : Stands k c) (hv : Stands v d)
      (hvs : StandEntries vs cs) : StandEntries ((k, v) :: vs) ((c, d) :: cs)

end

mutual

theorem Stands.constant? {v : Value} {c : Constant} : Stands v c → v.constant? = some c
  | .none => rfl
  | .bool _ => rfl
  | .int .. => rfl
  | .float _ => rfl
  | .str .. => rfl
  | .tuple _ h => by rw [Value.constant?, h.constants?]; rfl
  | .list _ h => by rw [Value.constant?, h.constants?]; rfl
  | .dict _ h => by rw [Value.constant?, h.constantEntries?]; rfl
  | .emptySet _ => rfl

theorem StandAll.constants? {vs : List Value} {cs : List Constant} :
    StandAll vs cs → Value.constants? vs = some cs
  | .nil => rfl
  | .cons hv hvs => by rw [Value.constants?, hv.constant?, hvs.constants?]; rfl

theorem StandEntries.constantEntries? {vs : List (Value × Value)}
    {cs : List (Constant × Constant)} :
    StandEntries vs cs → Value.constantEntries? vs = some cs
  | .nil => rfl
  | .cons hk hv hvs => by
    rw [Value.constantEntries?, hk.constant?, hv.constant?, hvs.constantEntries?]; rfl

end

/-! ## Kind, truth and texts -/

theorem Stands.kindName {v : Value} {c : Constant} (h : Stands v c) (place : Option Location) :
    v.kindName = (c.toValue place).kindName := by
  cases h <;> rfl

theorem StandAll.isEmpty {vs : List Value} {cs : List Constant} (h : StandAll vs cs) :
    vs.isEmpty = cs.isEmpty := by
  cases h <;> rfl

theorem StandEntries.isEmpty {vs : List (Value × Value)} {cs : List (Constant × Constant)}
    (h : StandEntries vs cs) : vs.isEmpty = cs.isEmpty := by
  cases h <;> rfl

theorem Stands.truth {v : Value} {c : Constant} (h : Stands v c) : v.truth = c.truth := by
  cases h with
  | tuple _ h => exact congrArg not h.isEmpty
  | list _ h => exact congrArg not h.isEmpty
  | dict _ h => exact congrArg not h.isEmpty
  | _ => rfl

mutual

theorem Stands.shown {v : Value} {c : Constant} (place : Option Location) :
    Stands v c → v.shown = (c.toValue place).shown
  | .none => rfl
  | .bool _ => rfl
  | .int .. => rfl
  | .float _ => rfl
  | .str .. => rfl
  | .tuple _ h => by rw [Value.shown, h.shownAll place, Constant.toValue, Value.shown]
  | .list _ h => by rw [Value.shown, h.shownAll place, Constant.toValue, Value.shown]
  | .dict _ h => by rw [Value.shown, h.shownEntries place, Constant.toValue, Value.shown]
  | .emptySet _ => rfl

theorem StandAll.shownAll {vs : List Value} {cs : List Constant} (place : Option Location) :
    StandAll vs cs → Value.shownAll vs = Value.shownAll (Constant.toValues place cs)
  | .nil => rfl
  | .cons hv hvs => by
    rw [Value.shownAll, hv.shown place, hvs.shownAll place, Constant.toValues, Value.shownAll]

theorem StandEntries.shownEntries {vs : List (Value × Value)} {cs : List (Constant × Constant)}
    (place : Option Location) :
    StandEntries vs cs → Value.shownEntries vs = Value.shownEntries (Constant.toEntries place cs)
  | .nil => rfl
  | .cons hk hv hvs => by
    rw [Value.shownEntries, hk.shown place, hv.shown place, hvs.shownEntries place,
      Constant.toEntries, Value.shownEntries]

end

theorem Stands.text {v : Value} {c : Constant} (h : Stands v c) (place : Option Location) :
    v.text = (c.toValue place).text := by
  cases h with
  | str => rfl
  | tuple m h => exact (Stands.tuple m h).shown place
  | list m h => exact (Stands.list m h).shown place
  | dict m h => exact (Stands.dict m h).shown place
  | _ => rfl

end Value

/-! ## Keys of dicts -/

namespace Constant

/-- The number that a constant is, truth values included. -/
def quantity? : Constant → Option Quantity
  | .bool b => some (.int (if b then 1 else 0))
  | .int n => some (.int n)
  | .float x => some (.float x)
  | _ => Option.none

/-- What sort of thing a constant is. Constants of two sorts are never one key. -/
inductive Shape where
  | nothing
  | number
  | text
  | sequence
  | mutable
deriving DecidableEq

def shape : Constant → Shape
  | .none => .nothing
  | .bool _ | .int _ | .float _ => .number
  | .str _ => .text
  | .tuple _ => .sequence
  | .list _ | .dict _ | .emptySet => .mutable

theorem compareInts_eq (n k : Int) :
    ((Quantity.int n).compare (.int k) == some .eq) = (n == k) := by
  rw [Quantity.compare, Bool.eq_iff_iff]
  simp

theorem compareFloats_eq (x y : Float) :
    ((Quantity.float x).compare (.float y) == some .eq) = (x == y) := by
  rw [Quantity.compare, compareFloat]
  split
  · next h => rw [h]; rfl
  · next h =>
    rw [Bool.eq_false_iff.mpr h]
    split
    · rfl
    · split <;> rfl

theorem compareIntFloat_eq (n : Int) (x : Float) :
    ((Quantity.int n).compare (.float x) == some .eq) = (compareInt n x == some .eq) := rfl

theorem compareFloatInt_eq (x : Float) (n : Int) :
    ((Quantity.float x).compare (.int n) == some .eq) = (compareInt n x == some .eq) := by
  rw [Quantity.compare]
  cases compareInt n x with
  | none => rfl
  | some o => cases o <;> rfl

/-- Numbers are one key if they are equal. -/
theorem sameKey_numbers {c d : Constant} {p q : Quantity} (hc : c.quantity? = some p)
    (hd : d.quantity? = some q) : c.sameKey d = (p.compare q == some .eq) := by
  cases c <;> cases hc <;> cases d <;> cases hd <;>
    simp only [compareInts_eq, compareFloats_eq, compareIntFloat_eq, compareFloatInt_eq, sameKey,
      asInt?]

theorem not_sameKey {c d : Constant} (h : c.shape ≠ d.shape) : c.sameKey d = false := by
  cases c <;> cases d <;> first | exact absurd rfl h | simp [sameKey, asInt?]

theorem exists_quantity {c : Constant} (h : c.shape = .number) : ∃ p, c.quantity? = some p := by
  cases c <;> first | exact ⟨_, rfl⟩ | cases h

end Constant

namespace Value

theorem equalItems_of_identicalItems : ∀ {as bs : List Value},
    identicalItems as bs = true → equalItems as bs = true
  | [], [], _ => by rw [equalItems]
  | a :: as, b :: bs, h => by
    rw [identicalItems, Bool.and_eq_true] at h
    rw [equalItems, h.1, equalItems_of_identicalItems h.2]
    rfl
  | [], _ :: _, h => by simp [identicalItems] at h
  | _ :: _, [], h => by simp [identicalItems] at h

theorem alike_tuple (m n : Mark) (as bs : List Value) :
    alike (.tuple m as) (.tuple n bs) = equalItems as bs := by
  rw [alike, identical, equal, Bool.eq_iff_iff]
  simp only [Bool.or_eq_true, Bool.and_eq_true, List.isEmpty_iff]
  constructor
  · rintro ((⟨rfl, rfl⟩ | ⟨-, h⟩) | h)
    · rw [equalItems]
    · exact equalItems_of_identicalItems h
    · exact h
  · exact .inr

theorem alike_str (m n : Mark) (s t : String) : alike (.str m s) (.str n t) = (s == t) := by
  have hequal : equal (.str m s) (.str n t) = ((s == t) || identical (.str m s) (.str n t)) := by
    rw [equal] <;> simp [quantity?, equalStrings, string?]
  rw [alike, hequal, identical]
  cases s == t <;> simp

theorem equal_number {v w : Value} (h : v.quantity?.isSome) : v.equal w = v.equalQuantities w := by
  cases v with
  | bool | int | float | derived => rw [equal, if_pos h] <;> simp
  | _ => cases h

theorem beq_of_toBits {x y : Float} (hx : x == x) (h : x.toBits = y.toBits) : x == y := by
  rcases x with ⟨⟨bx⟩⟩
  rcases y with ⟨⟨yb⟩⟩
  have hbits : bx = yb := h
  exact hbits ▸ hx

namespace Stands

theorem quantity? {v : Value} {c : Constant} (h : Stands v c) : v.quantity? = c.quantity? := by
  cases h <;> rfl

/-- Numbers that are one are equal. -/
theorem compare_of_identical {v w : Value} {c d : Constant} {p q : Quantity} (hv : Stands v c)
    (hw : Stands w d) (hp : v.quantity? = some p) (hq : w.quantity? = some q)
    (h : v.identical w = true) : (p.compare q == some .eq) = true := by
  cases hv <;> cases hp <;> cases hw <;> cases hq <;> simp [identical] at h
  · simp [h, Quantity.compare]
  · simp [h.1, Quantity.compare]
  · next m x hx n y hy =>
    rw [Constant.compareFloats_eq]
    refine beq_of_toBits (hx ?_) h.1
    cases m with
    | fresh => cases h.2
    | _ => rfl

theorem alike_numbers {v w : Value} {c d : Constant} (hv : Stands v c) (hw : Stands w d)
    (hc : c.shape = .number) (hd : d.shape = .number) : v.alike w = c.sameKey d := by
  obtain ⟨p, hp⟩ := Constant.exists_quantity hc
  obtain ⟨q, hq⟩ := Constant.exists_quantity hd
  rw [Constant.sameKey_numbers hp hq]
  rw [← hv.quantity?] at hp
  rw [← hw.quantity?] at hq
  have hequal : v.equal w = (p.compare q == some .eq) := by
    rw [equal_number (by rw [hp]; rfl), equalQuantities, hp, hq]
  rw [alike, hequal]
  cases hid : v.identical w with
  | false => rfl
  | true => rw [compare_of_identical hv hw hp hq hid]; rfl

theorem not_alike {v w : Value} {c d : Constant} (hv : Stands v c) (hw : Stands w d)
    (h : c.shape ≠ d.shape) : v.alike w = false := by
  cases hv <;> cases hw <;> first
    | exact absurd rfl h
    | simp [alike, identical, equal, equalStrings, equalQuantities, isSetOf, elements?,
        Value.quantity?, string?]

end Stands

mutual

/-- **Keys are one if and only if their constants are.** -/
theorem Stands.alike {v w : Value} {c d : Constant} (hv : Stands v c) (hw : Stands w d)
    (hc : c.isKey = true) (hd : d.isKey = true) : v.alike w = c.sameKey d := by
  by_cases h : c.shape = d.shape
  · -- of equal shape: numbers are compared by value, texts by their characters, tuples item by item
    cases hv with
    | none =>
      cases hw <;> cases h
      simp [Value.alike, identical, Constant.sameKey]
    | bool b => exact Stands.alike_numbers (.bool b) hw rfl h.symm
    | int m n => exact Stands.alike_numbers (.int m n) hw rfl h.symm
    | float hx => exact Stands.alike_numbers (.float hx) hw rfl h.symm
    | str m s =>
      cases hw <;> cases h
      exact alike_str ..
    | tuple m hvs =>
      cases hw <;> cases h
      next hws =>
      rw [alike_tuple, Constant.sameKey]
      exact hvs.equalItems hws hc hd
    | list => cases hc
    | dict => cases hc
    | emptySet => cases hc
  · rw [Constant.not_sameKey h, hv.not_alike hw h]

theorem StandAll.equalItems {vs ws : List Value} {cs ds : List Constant} (hvs : StandAll vs cs)
    (hws : StandAll ws ds) (hc : Constant.areKeys cs = true) (hd : Constant.areKeys ds = true) :
    Value.equalItems vs ws = Constant.sameKeys cs ds := by
  cases hvs with
  | nil => cases hws <;> simp [Value.equalItems, Constant.sameKeys]
  | cons hv hvs =>
    cases hws with
    | nil => simp [Value.equalItems, Constant.sameKeys]
    | cons hw hws =>
      rw [Constant.areKeys, Bool.and_eq_true] at hc hd
      rw [Value.equalItems, Constant.sameKeys, ← hv.alike hw hc.1 hd.1,
        hvs.equalItems hws hc.2 hd.2]
      rfl

end

/-! ## Dicts -/

mutual

theorem Stands.isKey {v : Value} {c : Constant} : Stands v c → v.isKey = c.isKey
  | .none => rfl
  | .bool _ => rfl
  | .int .. => rfl
  | .float _ => rfl
  | .str .. => rfl
  | .tuple _ h => h.areKeys
  | .list .. => rfl
  | .dict .. => rfl
  | .emptySet _ => rfl

theorem StandAll.areKeys {vs : List Value} {cs : List Constant} :
    StandAll vs cs → Value.areKeys vs = Constant.areKeys cs
  | .nil => rfl
  | .cons hv hvs => by rw [Value.areKeys, Constant.areKeys, hv.isKey, hvs.areKeys]

end

theorem StandEntries.allKeys {vs : List (Value × Value)} {cs : List (Constant × Constant)} :
    StandEntries vs cs → (vs.all fun (k, _) => k.isKey) = cs.all fun (k, _) => k.isKey
  | .nil => rfl
  | .cons hk _ hvs => by
    rw [List.all_cons, List.all_cons, hvs.allKeys]
    exact congrArg (· && _) hk.isKey

/-- All entries of a dict have keys that may be keys. -/
abbrev Keyed (entries : List (Constant × Constant)) : Prop :=
  ∀ e ∈ entries, e.1.isKey = true

theorem Keyed.insertEntry {c d : Constant} (hc : c.isKey = true) :
    ∀ {entries : List (Constant × Constant)}, Keyed entries →
      Keyed (Constant.insertEntry c d entries)
  | [], _ => by simpa [Keyed, Constant.insertEntry] using hc
  | (k, v) :: rest, h => by
    rw [Keyed, List.forall_mem_cons] at h
    rw [Constant.insertEntry]
    split
    · exact List.forall_mem_cons.mpr ⟨h.1, h.2⟩
    · exact List.forall_mem_cons.mpr ⟨h.1, Keyed.insertEntry hc h.2⟩

theorem StandEntries.insertEntry {k v : Value} {c d : Constant} (hk : Stands k c)
    (hv : Stands v d) (hc : c.isKey = true) {vs : List (Value × Value)}
    {cs : List (Constant × Constant)} :
    StandEntries vs cs → Keyed cs →
      StandEntries (insertEntry k v vs) (Constant.insertEntry c d cs)
  | .nil, _ => .cons hk hv .nil
  | .cons hk' hv' hvs, hkeys => by
    rw [Keyed, List.forall_mem_cons] at hkeys
    rw [Value.insertEntry, Constant.insertEntry, hk'.alike hk hkeys.1 hc]
    split
    · exact .cons hk' hv hvs
    · exact .cons hk' hv' (StandEntries.insertEntry hk hv hc hvs hkeys.2)

/-- Entries that stand for constants still do when they are put into a dict one by one. -/
theorem StandEntries.foldl {vs done : List (Value × Value)}
    {cs dcs : List (Constant × Constant)} : StandEntries vs cs → Keyed cs →
    StandEntries done dcs → Keyed dcs →
      StandEntries (vs.foldl (fun done (k, v) => Value.insertEntry k v done) done)
        (cs.foldl (fun done (k, v) => Constant.insertEntry k v done) dcs)
  | .nil, _, hdone, _ => hdone
  | .cons hk hv hvs, hkeys, hdone, hdkeys => by
    rw [Keyed, List.forall_mem_cons] at hkeys
    exact hvs.foldl hkeys.2 (hdone.insertEntry hk hv hkeys.1 hdkeys) (hdkeys.insertEntry hkeys.1)

/-- **Dicts get the same entries from constants and from their values.** -/
theorem ofEntries_stands {vs : List (Value × Value)} {cs : List (Constant × Constant)}
    {c : Constant} (h : StandEntries vs cs) (hc : Constant.ofEntries? cs = some c) :
    ∃ v, ofEntries vs = .ok v ∧ Stands v c := by
  unfold Constant.ofEntries? at hc
  split at hc
  · next hall =>
    cases hc
    have hkeys : Keyed cs := by simpa [Keyed] using hall
    exact ⟨_, by rw [ofEntries, h.allKeys, if_pos hall],
      .dict _ (h.foldl hkeys .nil nofun)⟩
  · cases hc

/-! ## Constants as values -/

theorem Stands.ofFloat (place : Option Location) (x : Float) :
    Stands (.float (.ofFloat place x) x) (.float x) := by
  refine .float fun h => ?_
  rw [Mark.ofFloat] at h
  split at h
  · assumption
  · cases h

mutual

theorem stands_toValue (place : Option Location) : ∀ c : Constant, Stands (c.toValue place) c
  | .none => .none
  | .bool b => .bool b
  | .int n => .int _ n
  | .float x => .ofFloat place x
  | .str s => .str _ s
  | .tuple items => .tuple _ (standAll_toValues place items)
  | .list items => .list _ (standAll_toValues place items)
  | .dict entries => .dict _ (standEntries_toEntries place entries)
  | .emptySet => .emptySet _

theorem standAll_toValues (place : Option Location) :
    ∀ items : List Constant, StandAll (Constant.toValues place items) items
  | [] => .nil
  | c :: rest => .cons (stands_toValue place c) (standAll_toValues place rest)

theorem standEntries_toEntries (place : Option Location) :
    ∀ entries : List (Constant × Constant),
      StandEntries (Constant.toEntries place entries) entries
  | [] => .nil
  | (k, c) :: rest =>
    .cons (stands_toValue place k) (stands_toValue place c) (standEntries_toEntries place rest)

end

theorem Stands.asConstant {v : Value} {c : Constant} (h : Stands v c) (place : Option Location) :
    Stands (v.asConstant place) c := by
  unfold Value.asConstant
  split
  · cases h
    exact .int _ _
  · cases h
    exact .ofFloat place _
  · cases h
    exact .str _ _
  · cases h with
    | tuple _ hvs => exact .tuple _ hvs
  · exact h

end Value

end Stencil
