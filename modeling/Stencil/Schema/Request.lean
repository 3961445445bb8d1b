import Stencil.Schema.Violation

/-!
# Requests to a registry

What an application and the engine ask of a registry, one request after the other: to extend it, to
close it, to check a tree against it, and to look something up in it. A request is answered, also
when it is refused, and the registry goes on to the next one.
-/

namespace Stencil.Schema

/-- What a registry can be asked. -/
inductive Request where
  | register (name : String) (settings : Settings)
  /-- Several elements with the same settings. -/
  | define (settings : Settings) (names : List String)
  | enable (families : List String)
  | allowCustom
  | freeze
  | validate (nodes : List Node)
  | lookup (name : String)
  | allows (entry : Entry) (attr : String)

/-- What a registry answers. -/
inductive Reply where
  | done
  | entry (e : Entry)
  | entries (es : List Entry)
  | refused (error : ChangeError)
  | valid (nodes : List Node)
  | invalid (violations : List Violation)
  | found (e : Option Entry)
  | allowed (answer : Bool)

/-- The reply to a change that may have been refused. -/
def Reply.ofChange {α : Type} (reply : α → Reply) : Except ChangeError α → Reply
  | .ok a => reply a
  | .error e => .refused e

/-- The reply to a check. -/
def Reply.ofCheck : Except (List Violation) (List Node) → Reply
  | .ok nodes => .valid nodes
  | .error violations => .invalid violations

/-- Whether a request puts the registry to use, so that it is closed from then on. -/
def Request.closes : Request → Bool
  | .freeze | .validate _ => true
  | _ => false

namespace Registry

/-- A registry as it is made, with the elements of HTML or with none. -/
def fresh : Bool → Registry
  | true => builtin
  | false => {}

/-- Check a tree against the registry, which is in use from then on. -/
def validate (r : Registry) (nodes : List Node) :
    Registry × Except (List Violation) (List Node) :=
  (r.freeze, r.freeze.check nodes)

/-- The registry after a request, and the reply. -/
def serve (r : Registry) : Request → Registry × Reply
  | .register name settings =>
    match r.register name settings with
    | .ok (r, e) => (r, .entry e)
    | .error e => (r, .refused e)
  | .define settings names =>
    let (r, result) := r.define settings names
    (r, .ofChange .entries result)
  | .enable families =>
    let (r, result) := r.enable families
    (r, .ofChange (fun _ => .done) result)
  | .allowCustom =>
    match r.allowCustom with
    | .ok r => (r, .done)
    | .error e => (r, .refused e)
  | .freeze => (r.freeze, .done)
  | .validate nodes =>
    let (r, result) := r.validate nodes
    (r, .ofCheck result)
  | .lookup name => (r, .found (r.lookup name))
  | .allows entry attr => (r, .allowed (r.allows entry attr))

/-- The registry after requests, one after the other. -/
def serveAll (r : Registry) (requests : List Request) : Registry :=
  requests.foldl (fun r q => (r.serve q).1) r

@[simp] theorem serveAll_nil (r : Registry) : r.serveAll [] = r := rfl

@[simp] theorem serveAll_cons (r : Registry) (q : Request) (rest : List Request) :
    r.serveAll (q :: rest) = (r.serve q).1.serveAll rest := rfl

end Registry

end Stencil.Schema
