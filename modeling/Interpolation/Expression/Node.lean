import Interpolation.Error
import Interpolation.Expression.Path

/-!
# Expressions

The expression language has literals, paths and lists.  Only a path is a place that can be assigned.

## Main definitions

* `Node`: the tree of an expression.
* `Node.evaluate`, `Node.assign`: the value of an expression, and assignment to one.
* `Expression`: a tree with the text it was read from.
-/

namespace Interpolation

/-- The tree of an expression.  Parentheses around a single expression leave no trace. -/
inductive Node where
  /-- A literal with its value. -/
  | literal (value : Value)
  /-- A place among the variables. -/
  | path (p : Path)
  /-- Several expressions in parentheses. -/
  | list (items : List Node)

/-- The error of an access that fails. -/
def AccessError.toError (e : AccessError) : Error := .unspanned (.evaluation e.message)

namespace Node

mutual

/-- The value of an expression. -/
def evaluate (scope : Scope) : Node → Except Error Value
  | literal value => .ok value
  | path p => (p.read scope).mapError AccessError.toError
  | list items => (evaluateItems scope items).map .list

/-- The values of the items of a list; the first item that has none fails the list. -/
def evaluateItems (scope : Scope) : List Node → Except Error (List Value)
  | [] => .ok []
  | item :: items =>
    match evaluate scope item with
    | .error e => .error e
    | .ok value => (evaluateItems scope items).map (value :: ·)

end

/-- Whether an expression is a place that can be assigned. -/
def isPlace : Node → Bool
  | path _ => true
  | _ => false

end Node

/-- An expression with the text it was read from. -/
structure Expression where
  /-- The text the expression was read from. -/
  source : String
  /-- The tree of the expression. -/
  node : Node

end Interpolation
