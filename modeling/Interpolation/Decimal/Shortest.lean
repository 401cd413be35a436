import Interpolation.Decimal.Nearest

/-!
# The fewest digits of a floating-point number

A finite number of binary64 stands for the interval of reals that round to it.  Its shortest decimal
is the one with the fewest digits in that interval, and of those the one nearest to the number.

The decimals with a given number of digits form a grid.  The search goes from coarse grids to fine
ones and looks only at the two neighbours of the number on each grid: if the interval holds any
point of a grid, it holds one of the two.

## Main definitions

* `Binary`: a positive finite number as a significand and an exponent.
* `Binary.shortest`: its shortest decimal.
* `positional`: a decimal written without an exponent.
* `floatText`: the text of any floating-point number.
-/

namespace Interpolation

/-- A finite number without a sign, `significand * 2 ^ exponent`. -/
structure Binary where
  /-- The significand, with at most fifty-three binary digits. -/
  significand : Nat
  /-- The power of two. -/
  exponent : Int
  /-- Whether the number below is only half as far away as the number above. -/
  narrowBelow : Bool

/-- The number with the given bits, which stand for a finite number; their sign is left out. -/
def Binary.ofBits (bits : UInt64) : Binary :=
  let biased := ((bits >>> 52) &&& 0x7FF).toNat
  let fraction := (bits &&& 0xFFFFFFFFFFFFF).toNat
  if biased = 0 then ⟨fraction, leastExponent, false⟩
  else
    ⟨fullSignificand + fraction, leastExponent + (biased - 1 : Nat), fraction = 0 ∧ 1 < biased⟩

/-- A natural with a power of ten, `digits * 10 ^ exponent`. -/
structure Decimal where
  /-- The digits, without a point. -/
  digits : Nat
  /-- The power of ten. -/
  exponent : Int
deriving DecidableEq

/-- The number of decimal places by which a quotient below one has to be moved to reach one, looked
for in at most `fuel` places. -/
def placesToOne (num den : Nat) : Nat → Nat
  | 0 => 0
  | fuel + 1 => if den ≤ num then 0 else placesToOne (num * 10) den fuel + 1

/-- The exponent `k` for which a positive quotient lies in `[10 ^ (k - 1), 10 ^ k)`.  No positive
number of binary64 needs more than 324 places to reach one. -/
def decimalScale (num den : Nat) : Int :=
  if den ≤ num then ((Nat.toDigits 10 (num / den)).length : Int)
  else 1 - (placesToOne num den 330 : Int)

namespace Binary

/-- The four-fold of the significand and the distances from there to the ends of the interval. -/
def fourfold (x : Binary) : Nat × Nat × Nat :=
  (4 * x.significand, if x.narrowBelow then 1 else 2, 2)

/-- The point of the grid of `10 ^ exponent` that stands for the number, if one of its two
neighbours on the grid lies in the interval.  The ends count if the significand is even; of two
neighbours the nearer is taken, and the upper one if both are equally near. -/
def onGrid? (x : Binary) (exponent : Int) : Option Nat :=
  let (middle, below, above) := x.fourfold
  let unit := x.exponent - 2
  let up := Nat.pow 2 unit.toNat * Nat.pow 10 (-exponent).toNat
  let grid := Nat.pow 2 (-unit).toNat * Nat.pow 10 exponent.toNat
  let num := middle * up
  let lower := num / grid
  let rest := num % grid
  let reaches (gap allowed : Nat) : Bool :=
    gap < allowed * up || (x.significand % 2 = 0 && gap = allowed * up)
  match reaches rest below, reaches (grid - rest) above with
  | true, true => some (if grid ≤ 2 * rest then lower + 1 else lower)
  | true, false => some lower
  | false, true => some (lower + 1)
  | false, false => none

/-- The first grid, from a given one on to finer ones, that has a point in the interval. -/
def search (x : Binary) (exponent : Int) : Nat → Decimal
  | 0 =>
    ⟨x.significand * Nat.pow 2 x.exponent.toNat * Nat.pow 5 (-x.exponent).toNat, min x.exponent 0⟩
  | fuel + 1 =>
    match x.onGrid? exponent with
    | some digits => ⟨digits, exponent⟩
    | none => search x (exponent - 1) fuel

/-- The shortest decimal of a positive number.  Seventeen digits always suffice; were they not to,
the exact decimal value would be given. -/
def shortest (x : Binary) : Decimal :=
  let scaled := scaleByPowerOfTwo x.significand 1 (-x.exponent)
  x.search (decimalScale scaled.1 scaled.2 - 1) 17

end Binary

/-- A decimal written out without an exponent, and without zeros at the end of its fraction. -/
def positional (d : Decimal) : List Char :=
  let digits := Nat.toDigits 10 d.digits
  if 0 ≤ d.exponent then digits ++ List.replicate d.exponent.toNat '0'
  else
    let places := (-d.exponent).toNat
    let padded := digits.leftpad (places + 1) '0'
    let fraction :=
      ((padded.drop (padded.length - places)).reverse.dropWhile (· = '0')).reverse
    padded.take (padded.length - places) ++ if fraction = [] then [] else '.' :: fraction

/-- The text of a floating-point number: its shortest decimal, written out.  Zero has no sign. -/
def floatText (x : Float) : String :=
  if x.isNaN then "NaN"
  else if x.isInf then (if x < 0 then "-inf" else "inf")
  else if x == 0 then "0"
  else
    let digits := positional (Binary.ofBits x.toBits).shortest
    String.ofList (if x < 0 then '-' :: digits else digits)

end Interpolation
