import Interpolation.Grammar.Basic
import Interpolation.Template.Parser

/-!
# Expressions in templates

The expression language as the language of the expressions in a template.
-/

namespace Interpolation

namespace Expression

/-- The expression that a text spells.  Delimiters have no meaning within an expression. -/
def parse : SubParser Expression := fun text _ =>
  (Grammar.parseNode text).map fun node => ⟨text, node⟩

/-- An expression has the value of its tree, and is written where the tree is a path. -/
instance : Evaluable Expression where
  value e scope := e.node.evaluate scope
  source e := e.source
  isWritable e := e.node.isPlace
  assign e new scope :=
    match e.node with
    | .path p =>
      let (outcome, scope) := p.assign new scope
      (outcome.mapError AccessError.toError, scope)
    | _ => (.error (readOnly e.source), scope)

end Expression

end Interpolation
