import Interpolation.Decimal.Digits

/-!
# JSON documents

A document is kept as it is written: members in their order and with their repetitions, numbers as
digits, and the text of a string as characters and escaped UTF-16 code units.  What a document means
is decided by whoever reads a value out of it.

## Main definitions

* `Json`: a document.
* `JsonNumber`, `JsonText`: a number and a string as written.
* `JsonText.toString?`: the text of a string, unless half a surrogate pair stands alone in it.
-/

namespace Interpolation

/-- A number as it is written. -/
structure JsonNumber where
  /-- Whether a minus stands in front. -/
  negative : Bool
  /-- The digits in front of the point. -/
  whole : List Char
  /-- The digits behind the point; none without a point. -/
  fraction : List Char
  /-- The sign and the digits of the power of ten; the sign is true for a negative one. -/
  exponent? : Option (Bool × List Char)
deriving DecidableEq

/-- A natural number in decimal digits. -/
def JsonNumber.ofNat (n : Nat) : JsonNumber := ⟨false, Nat.toDigits 10 n, [], none⟩

/-- The natural number that is written, if it is one without point and power of ten. -/
def JsonNumber.toNat? (n : JsonNumber) : Option Nat :=
  if n.negative || !n.fraction.isEmpty || n.exponent?.isSome then none
  else some (digitsValue n.whole)

/-- What a string is made of. -/
inductive JsonUnit where
  /-- A character. -/
  | char (c : Char)
  /-- A UTF-16 code unit, written as an escape. -/
  | code (n : Nat)
deriving DecidableEq

/-- The text of a string, as it is written between the quotes. -/
abbrev JsonText := List JsonUnit

namespace JsonText

/-- A text as a string without any escape. -/
def ofString (s : String) : JsonText := s.toList.map .char

/-- Whether a code unit is the first half of a surrogate pair. -/
def isHighHalf (n : Nat) : Bool := 0xD800 ≤ n && n ≤ 0xDBFF

/-- Whether a code unit is the second half of a surrogate pair. -/
def isLowHalf (n : Nat) : Bool := 0xDC00 ≤ n && n ≤ 0xDFFF

/-- The character that a surrogate pair encodes. -/
def joinHalves (high low : Nat) : Char :=
  Char.ofNat (0x10000 + (high - 0xD800) * 0x400 + (low - 0xDC00))

/-- The characters of a string.  There are none if half a surrogate pair stands alone. -/
def toChars? : JsonText → Option (List Char)
  | [] => some []
  | .char c :: units => (toChars? units).map (c :: ·)
  | .code n :: units =>
    -- A first half needs its second one right behind it.
    if isHighHalf n then
      match units with
      | .code m :: units =>
        if isLowHalf m then (toChars? units).map (joinHalves n m :: ·) else none
      | _ => none
    else if isLowHalf n then none
    else (toChars? units).map (Char.ofNat n :: ·)

/-- The text of a string, if it has no half of a surrogate pair alone. -/
def toString? (text : JsonText) : Option String := text.toChars?.map String.ofList

end JsonText

/-- A document as it is written. -/
inductive Json where
  /-- The literal `null`. -/
  | null
  /-- A literal, `true` or `false`. -/
  | bool (b : Bool)
  /-- A number, not yet read as one of a fixed size. -/
  | number (n : JsonNumber)
  /-- A string with its escapes. -/
  | string (text : JsonText)
  /-- The items between square brackets. -/
  | array (items : List Json)
  /-- The members, in the order in which they are written. -/
  | object (members : List (JsonText × Json))

namespace Json

/-- The document of a natural number. -/
def ofNat (n : Nat) : Json := .number (.ofNat n)

/-- The document of a text. -/
def ofString (s : String) : Json := .string (.ofString s)

/-- An object with the given members, in this order. -/
def ofMembers (members : List (String × Json)) : Json :=
  .object (members.map fun member => (.ofString member.1, member.2))

/-- The text of a string, if the document is one that has a text. -/
def toString? : Json → Option String
  | .string text => text.toString?
  | _ => none

/-- The value of a natural number, if the document is one. -/
def toNat? : Json → Option Nat
  | .number n => n.toNat?
  | _ => none

/-- The truth value, if the document is one. -/
def toBool? : Json → Option Bool
  | .bool b => some b
  | _ => none

/-- The items, if the document is an array. -/
def toItems? : Json → Option (List Json)
  | .array items => some items
  | _ => none

/-- The last member of the given name, if the document is an object that has one. -/
def member? (json : Json) (name : String) : Option Json :=
  match json with
  | .object members =>
    (members.reverse.find? fun member => member.1.toString? == some name).map (·.2)
  | _ => none

mutual

/-- How many arrays and objects of a document lie within each other. -/
def depth : Json → Nat
  | .array items => depthItems items + 1
  | .object members => depthMembers members + 1
  | _ => 0

/-- How deep the deepest item is. -/
def depthItems : List Json → Nat
  | [] => 0
  | item :: items => max item.depth (depthItems items)

/-- How deep the deepest member is. -/
def depthMembers : List (JsonText × Json) → Nat
  | [] => 0
  | (_, json) :: members => max json.depth (depthMembers members)

end

end Json

end Interpolation
