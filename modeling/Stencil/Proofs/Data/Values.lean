import Mathlib.Data.List.Basic
import Stencil.Proofs.Results
import Stencil.Render.Builtin
import Stencil.Render.Method
import Stencil.Value.Arithmetic
import Stencil.Value.Member

/-!
# Data

Data are the values that expressions make of literals and of data: numbers, strings, containers of
data, the functions that every expression can call and the methods of strings and dicts. None of
them writes itself; what is written for them is their text.

An iterator is data if it is none of those that were there before, so the numbers of iterators are
looked at, too: `k` is the first of them.

Everything that is done with data gives data again.
-/

namespace Stencil

/-- Whether the method is one of strings or dicts. -/
def Method.isPlain : Method → Bool
  | .render | .renderTo | .bind | .create => false
  | _ => true

/-- Data, with iterators that have numbers from `k` on. -/
inductive Value.IsData (k : Nat) : Value → Prop
  | none : IsData k .none
  | bool (b : Bool) : IsData k (.bool b)
  | int (m : Mark) (n : Int) : IsData k (.int m n)
  | float (m : Mark) (x : Float) : IsData k (.float m x)
  | str (m : Mark) (s : String) : IsData k (.str m s)
  | list (m : Mark) {items : List Value} (h : ∀ v ∈ items, v.IsData k) : IsData k (.list m items)
  | tuple (m : Mark) {items : List Value} (h : ∀ v ∈ items, v.IsData k) : IsData k (.tuple m items)
  | dict (m : Mark) {entries : List (Value × Value)} (hk : ∀ e ∈ entries, e.1.IsData k)
      (hv : ∀ e ∈ entries, e.2.IsData k) : IsData k (.dict m entries)
  | view (m : Mark) (shape : ViewKind) {entries : List (Value × Value)}
      (hk : ∀ e ∈ entries, e.1.IsData k) (hv : ∀ e ∈ entries, e.2.IsData k) :
      IsData k (.view m shape entries)
  | set (m : Mark) {items : List Value} (h : ∀ v ∈ items, v.IsData k) : IsData k (.set m items)
  | range (m : Mark) (start stop step : Int) : IsData k (.range m start stop step)
  | iterator (source : IteratorKind) {id : Nat} (h : k ≤ id) : IsData k (.iterator source id)
  | builtin (f : Builtin) : IsData k (.builtin f)
  | method (m : Mark) {subject : Value} {f : Method} (hf : f.isPlain) (h : subject.IsData k) :
      IsData k (.method m subject f)

/-- All values are data. -/
def AreData (k : Nat) (values : List Value) : Prop :=
  ∀ v ∈ values, v.IsData k

/-- All keys and values of entries are data. -/
def EntriesData (k : Nat) (entries : List (Value × Value)) : Prop :=
  ∀ e ∈ entries, e.1.IsData k ∧ e.2.IsData k

/-- All values of names are data. -/
def ScopeData (k : Nat) (scope : Scope) : Prop :=
  ∀ b ∈ scope, b.2.IsData k

/-- If there is a value, it is data. -/
def GivesData (k : Nat) (r : Except Fault Value) : Prop :=
  ∀ v, r = .ok v → v.IsData k

variable {k : Nat}

theorem AreData.nil : AreData k [] := List.forall_mem_nil _

theorem AreData.cons {v : Value} {rest : List Value} (hv : v.IsData k) (h : AreData k rest) :
    AreData k (v :: rest) :=
  List.forall_mem_cons.mpr ⟨hv, h⟩

theorem AreData.append {a b : List Value} (ha : AreData k a) (hb : AreData k b) :
    AreData k (a ++ b) :=
  List.forall_mem_append.mpr ⟨ha, hb⟩

theorem AreData.subset {a b : List Value} (hb : AreData k b) (h : a ⊆ b) : AreData k a :=
  fun v hv => hb v (h hv)

theorem EntriesData.nil : EntriesData k [] := List.forall_mem_nil _

theorem EntriesData.cons {key v : Value} {rest : List (Value × Value)} (hkey : key.IsData k)
    (hv : v.IsData k) (h : EntriesData k rest) : EntriesData k ((key, v) :: rest) :=
  List.forall_mem_cons.mpr ⟨⟨hkey, hv⟩, h⟩

theorem GivesData.ok {v : Value} (h : v.IsData k) : GivesData k (.ok v) := by
  rintro _ ⟨⟩
  exact h

theorem GivesData.error (e : Fault) : GivesData k (.error e) :=
  nofun

theorem GivesData.bind {α : Type} {x : Except Fault α} {f : α → Except Fault Value}
    (h : ∀ a, x = .ok a → GivesData k (f a)) : GivesData k (x >>= f) := by
  intro v hv
  obtain ⟨a, ha, hv⟩ := bind_eq_ok.mp hv
  exact h a ha v hv

/-- What was computed before does not matter. -/
theorem GivesData.after {α : Type} {x : Except Fault α} {f : α → Except Fault Value}
    (h : ∀ a, GivesData k (f a)) : GivesData k (x >>= f) :=
  .bind fun a _ => h a

theorem GivesData.ite {c : Prop} [Decidable c] {x y : Except Fault Value} (hx : GivesData k x)
    (hy : GivesData k y) : GivesData k (if c then x else y) := by
  split
  · exact hx
  · exact hy

/-- Nor does it matter what may have failed. -/
theorem GivesData.guarded {c : Prop} [Decidable c] {x : Except Fault PUnit}
    {f : PUnit → Except Fault Value} (h : ∀ a, GivesData k (f a)) :
    GivesData k (if c then x >>= f else f ⟨⟩) := by
  split
  · exact .after h
  · exact h _

namespace Value

theorem IsData.dict_iff {m : Mark} {entries : List (Value × Value)} :
    (Value.dict m entries).IsData k ↔ EntriesData k entries := by
  constructor
  · rintro ⟨⟩
    next hk hv => exact fun e he => ⟨hk e he, hv e he⟩
  · exact fun h => .dict m (fun e he => (h e he).1) fun e he => (h e he).2

theorem IsData.view_iff {m : Mark} {shape : ViewKind} {entries : List (Value × Value)} :
    (Value.view m shape entries).IsData k ↔ EntriesData k entries := by
  constructor
  · rintro ⟨⟩
    next hk hv => exact fun e he => ⟨hk e he, hv e he⟩
  · exact fun h => .view m shape (fun e he => (h e he).1) fun e he => (h e he).2

theorem IsData.list_iff {m : Mark} {items : List Value} :
    (Value.list m items).IsData k ↔ AreData k items :=
  ⟨fun h => by cases h; assumption, .list m⟩

theorem IsData.tuple_iff {m : Mark} {items : List Value} :
    (Value.tuple m items).IsData k ↔ AreData k items :=
  ⟨fun h => by cases h; assumption, .tuple m⟩

theorem IsData.set_iff {m : Mark} {items : List Value} :
    (Value.set m items).IsData k ↔ AreData k items :=
  ⟨fun h => by cases h; assumption, .set m⟩

/-! ## New values -/

theorem isData_ofString (s : String) : (ofString s).IsData k := .str _ s

theorem isData_ofInt (n : Int) : (ofInt n).IsData k := .int _ n

theorem isData_ofPiece (s : String) : (ofPiece s).IsData k := .str _ s

theorem isData_plainString {v : Value} (h : v.IsData k) : v.plainString.IsData k := by
  cases h <;> constructor <;> assumption

mutual

theorem isData_toValue (place : Option Location) (c : Constant) : (c.toValue place).IsData k :=
  match c with
  | .none => .none
  | .bool b => .bool b
  | .int n => .int _ n
  | .float x => .float _ x
  | .str s => .str _ s
  | .tuple items => .tuple _ (areData_toValues place items)
  | .list items => .list _ (areData_toValues place items)
  | .dict entries => IsData.dict_iff.mpr (entriesData_toEntries place entries)
  | .emptySet => .set _ AreData.nil

theorem areData_toValues (place : Option Location) (items : List Constant) :
    AreData k (Constant.toValues place items) :=
  match items with
  | [] => .nil
  | c :: rest => .cons (isData_toValue place c) (areData_toValues place rest)

theorem entriesData_toEntries (place : Option Location) (entries : List (Constant × Constant)) :
    EntriesData k (Constant.toEntries place entries) :=
  match entries with
  | [] => .nil
  | (key, c) :: rest =>
    .cons (isData_toValue place key) (isData_toValue place c) (entriesData_toEntries place rest)

end

theorem isData_asConstant (place : Option Location) {v : Value} (h : v.IsData k) :
    (v.asConstant place).IsData k := by
  unfold asConstant
  split
  · exact .int _ _
  · exact .float _ _
  · exact .str _ _
  · exact IsData.tuple_iff.mpr (IsData.tuple_iff.mp h)
  · exact h

end Value

end Stencil
