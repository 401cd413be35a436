import Interpolation.Value.Basic

/-!
# Scopes

The variables that expressions are evaluated with.
-/

namespace Interpolation

/-- The variables that are defined, with their values. -/
structure Scope where
  /-- The variables by their names. -/
  entries : Dictionary Value

namespace Scope

/-- No variable is defined. -/
def empty : Scope := ⟨[]⟩

instance : Inhabited Scope := ⟨empty⟩

/-- The scope with the given variables; of two with one name the later one counts. -/
def ofList (entries : List (String × Value)) : Scope := ⟨Dictionary.ofList entries⟩

/-- The value of a variable, if it is defined. -/
def get? (scope : Scope) (name : String) : Option Value := Dictionary.get? name scope.entries

/-- A scope with one variable defined anew. -/
def set (scope : Scope) (name : String) (value : Value) : Scope :=
  ⟨Dictionary.insert name value scope.entries⟩

/-- Two scopes are equal if they define the same variables with equal values. -/
instance : BEq Scope := ⟨fun s t => Value.map s.entries == Value.map t.entries⟩

end Scope

end Interpolation
