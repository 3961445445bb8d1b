import Stencil.Plan.Basic
import Stencil.Tree.Same

/-!
# Plans that do the same

Plans are compared operation by operation; places of expressions do not count.
-/

namespace Stencil

/-- Whether two parts are the same. -/
def Part.same : Part → Part → Bool
  | .text a, .text b => a == b
  | .value a, .value b => a.same b
  | _, _ => false

/-- Whether two lists of parts are the same. -/
def sameParts : List Part → List Part → Bool
  | [], [] => true
  | a :: as, b :: bs => a.same b && sameParts as bs
  | _, _ => false

/-- Whether two lists of arguments are the same. -/
def sameArguments : List (String × Content) → List (String × Content) → Bool
  | [], [] => true
  | (name, a) :: as, (name', b) :: bs => name == name' && a.same b && sameArguments as bs
  | _, _ => false

mutual

/-- Whether two operations are the same. -/
def Op.same : Op → Op → Bool
  | .literal a, .literal b => a == b
  | .escaped a inAttribute, .escaped b inAttribute' => a.same b && inAttribute == inAttribute'
  | .joined as, .joined bs => sameParts as bs
  | .raw a, .raw b => a.same b
  | .branch as, .branch bs => sameGuarded as bs
  | .loop names source body, .loop names' source' body' =>
    names == names' && source.same source' && samePlan body body'
  | .switch subject arms, .switch subject' arms' => subject.same subject' && sameGuarded arms arms'
  | .toggle a body, .toggle b body' => a.same b && samePlan body body'
  | .call reference arguments none, .call reference' arguments' none =>
    reference.same reference' && sameArguments arguments arguments'
  | .call reference arguments (some body), .call reference' arguments' (some body') =>
    reference.same reference' && sameArguments arguments arguments' && samePlan body body'
  | _, _ => false

/-- Whether two plans are the same. -/
def samePlan : List Op → List Op → Bool
  | [], [] => true
  | a :: as, b :: bs => a.same b && samePlan as bs
  | _, _ => false

/-- Whether two lists of guarded plans are the same. -/
def sameGuarded : List (Option Expr × List Op) → List (Option Expr × List Op) → Bool
  | [], [] => true
  | (a, body) :: as, (b, body') :: bs =>
    sameCondition a b && samePlan body body' && sameGuarded as bs
  | _, _ => false

end

end Stencil
