import Interpolation.Decimal.Nearest
import Interpolation.Json.Reader
import Interpolation.Value.Basic

/-!
# Values of JSON documents

Every document has a value, unless half a surrogate pair stands alone in one of its strings, one of
its numbers is too large, or it nests too deeply.

A number is read by its leading digits: as many as fit into 64 bits make up the significand, the
others only move the point.  The significand is then multiplied or divided by a power of ten, so the
result can differ in the last place from the nearest number.

## Main definitions

* `JsonNumber.toFloat?`: the number that is written.
* `Value.ofJson?`: the value of a document.
* `Value.parseJson?`: the value of the document that a text spells.
-/

namespace Interpolation

/-- The largest number in 64 bits. -/
def largestSignificand : Nat := 0xFFFFFFFFFFFFFFFF

/-- The digits of a number that count, as a natural of at most 64 bits, and the digits that come too
late to count: from the first one on that would make the natural too large. -/
def fitDigits (significand : Nat) : List Char → Nat × List Char
  | [] => (significand, [])
  | c :: cs =>
    let next := significand * 10 + digitsValue [c]
    if next ≤ largestSignificand then fitDigits next cs else (significand, c :: cs)

/-- The largest power of ten that is a finite number. -/
def largestStep : Int := 308

/-- A power of ten as a number, which is finite up to the largest step. -/
def powerOfTen (exponent : Nat) : Float := nearestDecimal 1 exponent

/-- A number times a power of ten, in steps; there is none where the result is too large. -/
def scaleByTen (x : Float) (exponent : Int) : Option Float :=
  if exponent < -largestStep then
    -- A very small power is reached in several steps.
    if x == 0 then some x else scaleByTen (x / powerOfTen 308) (exponent + largestStep)
  else if exponent < 0 then some (x / powerOfTen exponent.natAbs)
  else if exponent ≤ largestStep then
    let product := x * powerOfTen exponent.natAbs
    if product.isInf then none else some product
  else if x == 0 then some x
  else none
termination_by exponent.natAbs
decreasing_by simp only [largestStep] at *; omega

/-- The largest power of ten that is told apart; a larger one is as good as unbounded. -/
def largestExponent : Nat := 0x7FFFFFFF

namespace JsonNumber

/-- A number without its sign; there is none where it is too large. -/
def magnitude? (n : JsonNumber) : Option Float :=
  let (significand, late) := fitDigits 0 n.whole
  let (significand, lateFraction) := fitDigits significand n.fraction
  -- Each digit too late to count makes the power of ten larger, each digit of the fraction that
  -- counts makes it smaller.
  let moved : Int := (late.length : Int) - (n.fraction.length - lateFraction.length : Nat)
  let x := nearestQuotient significand 1
  match n.exponent? with
  | none => scaleByTen x moved
  | some (negative, digits) =>
    let exponent := digitsValue digits
    if largestExponent < exponent then
      if significand = 0 ∨ negative then some 0 else none
    else scaleByTen x (if negative then moved - exponent else moved + exponent)

/-- The number that is written, if it is not too large. -/
def toFloat? (n : JsonNumber) : Option Float :=
  n.magnitude?.map fun x => if n.negative then -x else x

end JsonNumber

/-- How deep a document may nest. -/
def depthLimit : Nat := 127

namespace Value

mutual

/-- The value of a document, however deep it nests. -/
def ofJsonNode? : Json → Option Value
  | .null => some nil
  | .bool b => some (bool b)
  | .number n => n.toFloat?.map number
  | .string text => text.toString?.map string
  | .array items => (ofJsonItems? items).map list
  | .object members => (ofJsonMembers? members).map fun entries => map (Dictionary.ofList entries)

/-- The values of the items of an array, in the order of the document. -/
def ofJsonItems? : List Json → Option (List Value)
  | [] => some []
  | item :: items =>
    match ofJsonNode? item, ofJsonItems? items with
    | some value, some values => some (value :: values)
    | _, _ => none

/-- The names and the values of the members of an object, in the order of the document. -/
def ofJsonMembers? : List (JsonText × Json) → Option (List (String × Value))
  | [] => some []
  | (name, json) :: members =>
    match name.toString?, ofJsonNode? json, ofJsonMembers? members with
    | some name, some value, some entries => some ((name, value) :: entries)
    | _, _, _ => none

end

/-- The value of a document.  Of two members with one name the later one counts. -/
def ofJson? (json : Json) : Option Value :=
  if json.depth ≤ depthLimit then ofJsonNode? json else none

/-- The value of the document that a text spells. -/
def parseJson? (text : String) : Option Value := (Json.parse? text).bind ofJson?

end Value

end Interpolation
