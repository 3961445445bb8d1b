import Stencil.Value.Basic

/-!
# Identity

Whether two values are one and the same. Small integers, the empty string and the empty tuple are
there only once; everything else goes by its mark. A value that is bound to a name, and all that it
holds, is settled first: what is fresh gets a number of its own.
-/

namespace Stencil.Value

/-- Whether an integer is one of those that are there only once. -/
def isSmall (n : Int) : Bool :=
  -5 ≤ n && n ≤ 256

mutual

/-- Whether two values are one and the same. -/
def identical : Value → Value → Bool
  | .none, .none => true
  | .bool a, .bool b => a == b
  | .int m a, .int n b => a == b && (isSmall a || m.agrees n)
  | .float m x, .float n y => x.toBits == y.toBits && m.agrees n
  | .str m s, .str n t => s == t && (s.isEmpty || m.agrees n)
  | .list m _, .list n _ => m.agrees n
  | .tuple m as, .tuple n bs =>
    (as.isEmpty && bs.isEmpty) || (m.agrees n && identicalItems as bs)
  | .dict m _, .dict n _ => m.agrees n
  | .view m _ _, .view n _ _ => m.agrees n
  | .set m _, .set n _ => m.agrees n
  | .range m .., .range n .. => m.agrees n
  | .iterator _ a, .iterator _ b => a == b
  | .object m _, .object n _ => m.agrees n
  | .record m .., .record n .. => m.agrees n
  | .raw m _ _, .raw n _ _ => m.agrees n
  | .rendered m _, .rendered n _ => m.agrees n
  | .derived m _ _, .derived n _ _ => m.agrees n
  | .template m _, .template n _ => m.agrees n
  | .lazy m _, .lazy n _ => m.agrees n
  | .component a, .component b => a == b
  | .builtin a, .builtin b => a == b
  | .method m _ f, .method n _ g => f == g && m.agrees n
  | .kind a, .kind b => a == b
  | .output, .output => true
  | _, _ => false

/-- Whether the items of two tuples are one and the same. -/
def identicalItems : List Value → List Value → Bool
  | [], [] => true
  | a :: as, b :: bs => identical a b && identicalItems as bs
  | _, _ => false

end

/-! ## Settling -/

mutual

/-- The value with a number for everything in it that is fresh. Numbers are given from the second
argument on; the next free one is returned, too. -/
def settle : Value → Nat → Value × Nat
  | .int .fresh n, id => (.int (.made id) n, id + 1)
  | .float .fresh x, id => (.float (.made id) x, id + 1)
  | .str .fresh s, id => (.str (.made id) s, id + 1)
  | .list .fresh items, id =>
    let (items, id) := settleAll items id
    (.list (.made id) items, id + 1)
  | .tuple .fresh items, id =>
    let (items, id) := settleAll items id
    (.tuple (.made id) items, id + 1)
  | .dict .fresh entries, id =>
    let (entries, id) := settleEntries entries id
    (.dict (.made id) entries, id + 1)
  | .view .fresh shape entries, id =>
    let (entries, id) := settleEntries entries id
    (.view (.made id) shape entries, id + 1)
  | .set .fresh items, id =>
    let (items, id) := settleAll items id
    (.set (.made id) items, id + 1)
  | .range .fresh start stop step, id => (.range (.made id) start stop step, id + 1)
  | .object .fresh members, id =>
    let (members, id) := settleMembers members id
    (.object (.made id) members, id + 1)
  | .record .fresh label tupled fields more, id =>
    let (fields, id) := settleMembers fields id
    let (more, id) := settleMembers more id
    (.record (.made id) label tupled fields more, id + 1)
  -- markup and the text in it are two things
  | .raw .fresh textMark markup, id =>
    (.raw (.made id) (if textMark.isFresh then .made (id + 1) else textMark) markup, id + 2)
  | .rendered .fresh markup, id => (.rendered (.made id) markup, id + 1)
  | .derived .fresh scalar text, id => (.derived (.made id) scalar text, id + 1)
  | .template .fresh t, id => (.template (.made id) t, id + 1)
  | .lazy .fresh action, id => (.lazy (.made id) action, id + 1)
  | .method .fresh subject m, id =>
    let (subject, id) := settle subject id
    (.method (.made id) subject m, id + 1)
  | v, id => (v, id)

/-- Values with numbers for everything fresh. -/
def settleAll : List Value → Nat → List Value × Nat
  | [], id => ([], id)
  | v :: rest, id =>
    let (v, id) := settle v id
    let (rest, id) := settleAll rest id
    (v :: rest, id)

/-- The entries of a dict with numbers for everything fresh. -/
def settleEntries : List (Value × Value) → Nat → List (Value × Value) × Nat
  | [], id => ([], id)
  | (k, v) :: rest, id =>
    let (k, id) := settle k id
    let (v, id) := settle v id
    let (rest, id) := settleEntries rest id
    ((k, v) :: rest, id)

/-- Named values with numbers for everything fresh. -/
def settleMembers : List (String × Value) → Nat → List (String × Value) × Nat
  | [], id => ([], id)
  | (name, v) :: rest, id =>
    let (v, id) := settle v id
    let (rest, id) := settleMembers rest id
    ((name, v) :: rest, id)

end

end Stencil.Value
