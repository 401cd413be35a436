/-!
# Decimal digits

The natural number that a run of digits spells.
-/

namespace Interpolation

/-- The natural number that decimal digits spell; no digits spell zero. -/
def digitsValue (digits : List Char) : Nat :=
  digits.foldl (fun n c => n * 10 + (c.toNat - '0'.toNat)) 0

end Interpolation
