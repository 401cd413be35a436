import Interpolation.Error
import Interpolation.Scope

/-!
# What can be evaluated

Templates, their pieces and the expressions in them are evaluated alike: they have a value in a
scope, the text they were read from, and perhaps a place that can be assigned.

## Main definitions

* `Evaluable`: the operations; without more said, an evaluable is read-only.
* `renderText`: a value as the text it adds to a template.
-/

namespace Interpolation

/-- The failure of an assignment to something that is no place. -/
def readOnly (source : String) : Error := .unspanned (.notWritable source)

/-- What has a value in a scope. -/
class Evaluable (ε : Type) where
  /-- The value in a scope. -/
  value : ε → Scope → Except Error Value
  /-- The text that was read. -/
  source : ε → String
  /-- Whether it is a place that can be assigned. -/
  isWritable : ε → Bool := fun _ => false
  /-- Assigns a value.  Gives the outcome, and the scope afterwards. -/
  assign : ε → Value → Scope → Except Error Unit × Scope :=
    fun e _ scope => (.error (readOnly (source e)), scope)

/-- The text that something adds to a template. -/
def renderText {ε : Type} [Evaluable ε] (e : ε) (scope : Scope) : Except Error String :=
  (Evaluable.value e scope).map Value.contribution

end Interpolation
