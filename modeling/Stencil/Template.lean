import Stencil.Plan.Merge
import Stencil.Schema.Violation
import Stencil.Source.Read

/-!
# Templates

A template is compiled once: its source is read, its tree is checked against a registry and
translated to a plan. Every error of the source shows then, before anything is rendered.
-/

namespace Stencil

open Schema

/-- A compiled template. -/
structure Template where
  /-- The name that is shown to users. -/
  name : String
  /-- Whether its compilation is reported. -/
  verbose : Bool
  dialect : Dialect
  source : String
  tree : List Node
  plan : Plan

/-- Why a template is refused. -/
inductive CompileError where
  | source (error : SourceError)
  | invalid (violations : List Violation)
  | plan (error : PlanError)

namespace Template

/-- The name of a template that was given none. -/
def anonymous : String := "<template>"

/-- Compile a template. A source that can be read is checked, and from then on the registry is in
use; one that cannot be read leaves it as it was. -/
def compile (r : Registry) (dialect : Dialect) (source name : String) (verbose : Bool) :
    Registry × Except CompileError Template :=
  match Source.read dialect source with
  | .error e => (r, .error (.source e))
  | .ok nodes =>
    match r.check nodes with
    | .error violations => (r.freeze, .error (.invalid violations))
    | .ok tree =>
      match Plan.ofTree tree with
      | .error e => (r.freeze, .error (.plan e))
      | .ok plan => (r.freeze, .ok ⟨name, verbose, dialect, source, tree, plan⟩)

/-- The template as it is shown. -/
def label (t : Template) : String :=
  s!"<Template {t.name} ({t.dialect.name})>"

/-- What is printed about the compilation, if that is asked for. -/
def summary (t : Template) : String :=
  let nodes := t.tree.length
  let ops := t.plan.length
  s!"hypertext: compiled {t.name} ({t.dialect.name}): {nodes} top-level node(s), {ops} op(s)\n"

end Template

end Stencil
