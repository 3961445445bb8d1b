import Stencil.Tree.Basic

/-!
# Trees that say the same

Trees are compared by what they say: places in the source and the marks of void elements do not
count.
-/

namespace Stencil

mutual

/-- Whether two contents say the same. -/
def Content.same : Content → Content → Bool
  | .literal a, .literal b => a == b
  | .dynamic a raw, .dynamic b raw' => a.same b && raw == raw'
  | .toggle a, .toggle b => a.same b
  | .joined as, .joined bs => sameContents as bs
  | .unknown, .unknown => true
  | _, _ => false

/-- Whether two lists of contents say the same. -/
def sameContents : List Content → List Content → Bool
  | [], [] => true
  | a :: as, b :: bs => a.same b && sameContents as bs
  | _, _ => false

end

/-- Whether two attributes say the same. -/
def Attribute.same (a b : Attribute) : Bool :=
  a.name == b.name && a.value.same b.value

/-- Whether two lists of attributes say the same. -/
def sameAttributes : List Attribute → List Attribute → Bool
  | [], [] => true
  | a :: as, b :: bs => a.same b && sameAttributes as bs
  | _, _ => false

/-- Whether two conditions say the same; none is a condition of its own. -/
def sameCondition : Option Expr → Option Expr → Bool
  | none, none => true
  | some a, some b => a.same b
  | _, _ => false

mutual

/-- Whether two nodes say the same. -/
def Node.same : Node → Node → Bool
  | .element name attributes children _ _, .element name' attributes' children' _ _ =>
    name == name' && sameAttributes attributes attributes' && sameNodes children children'
  | .text content _, .text content' _ => content.same content'
  | .doctype _, .doctype _ => true
  | .component reference arguments children _, .component reference' arguments' children' _ =>
    reference.same reference' && sameAttributes arguments arguments' &&
      sameNodes children children'
  | .choice branches _, .choice branches' _ => sameBranches branches branches'
  | .each names source body _, .each names' source' body' _ =>
    names == names' && source.same source' && sameNodes body body'
  | .cases subject arms _, .cases subject' arms' _ =>
    subject.same subject' && sameBranches arms arms'
  | .unknown, .unknown => true
  | _, _ => false

/-- Whether two lists of nodes say the same. -/
def sameNodes : List Node → List Node → Bool
  | [], [] => true
  | a :: as, b :: bs => a.same b && sameNodes as bs
  | _, _ => false

/-- Whether two lists of guarded bodies say the same. -/
def sameBranches : List (Option Expr × List Node) → List (Option Expr × List Node) → Bool
  | [], [] => true
  | (a, body) :: as, (b, body') :: bs =>
    sameCondition a b && sameNodes body body' && sameBranches as bs
  | _, _ => false

end

end Stencil
