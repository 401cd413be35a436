/-!
# The nearest floating-point number

A quotient of two naturals, rounded to the nearest number of binary64, a tie to the even
significand.  The arithmetic is exact, so the result does not depend on how many digits the quotient
was written with.

## Main definitions

* `nearestBits`: the bits of the number nearest to a quotient.
* `nearestDecimal`: the number nearest to digits with a power of ten.
-/

namespace Interpolation

/-- The exponent of the smallest numbers of binary64. -/
def leastExponent : Int := -1074

/-- The smallest significand with fifty-three binary digits. -/
def fullSignificand : Nat := 0x10000000000000

/-- The bits of infinity. -/
def infinityBits : Nat := 0x7FF0000000000000

/-- The quotient of two naturals rounded to the nearest natural, a tie to the even one. -/
def roundQuotient (num den : Nat) : Nat :=
  let floor := num / den
  let twice := 2 * (num % den)
  if twice < den then floor
  else if den < twice then floor + 1
  else floor + floor % 2

/-- A power of two as a factor of a numerator and of a denominator. -/
def scaleByPowerOfTwo (num den : Nat) (exponent : Int) : Nat × Nat :=
  (num * Nat.pow 2 (-exponent).toNat, den * Nat.pow 2 exponent.toNat)

/-- The exponent at which the quotient has a significand of fifty-three binary digits, or the least
exponent if that is larger. -/
def significandExponent (num den : Nat) : Int :=
  let estimate : Int := (num.log2 : Int) - den.log2 - 52
  let scaled := scaleByPowerOfTwo num den estimate
  -- The quotient of the logarithms can be one too large, never too small.
  max leastExponent (if scaled.1 / scaled.2 < fullSignificand then estimate - 1 else estimate)

/-- The bits of the number of binary64 nearest to `num / den`, without a sign.  A significand that
rounding takes to the next power of two carries into the exponent by itself. -/
def nearestBits (num den : Nat) : Nat :=
  if num = 0 then 0
  else
    let exponent := significandExponent num den
    let scaled := scaleByPowerOfTwo num den exponent
    let significand := roundQuotient scaled.1 scaled.2
    min infinityBits ((exponent - leastExponent).toNat * fullSignificand + significand)

/-- The number nearest to a quotient. -/
def nearestQuotient (num den : Nat) : Float := .ofBits (.ofNat (nearestBits num den))

/-- The floating-point number nearest to `digits * 10 ^ exponent`. -/
def nearestDecimal (digits : Nat) (exponent : Int) : Float :=
  nearestQuotient (digits * Nat.pow 10 exponent.toNat) (Nat.pow 10 (-exponent).toNat)

end Interpolation
