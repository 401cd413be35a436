import Interpolation.Json.Basic

/-!
# Reading JSON

The grammar of JSON documents: no comments, no trailing commas, no bare control characters in
strings, no leading zeros.

## Main definitions

* `Json.parse?`: the document that a text spells.
-/

namespace Interpolation

namespace Json

/-- The four characters that may stand between the parts of a document. -/
def isSpace (c : Char) : Bool := c = ' ' || c = '\n' || c = '\t' || c = '\r'

/-- A text without the space at its start. -/
def skipSpace (text : List Char) : List Char := text.dropWhile isSpace

/-! ## Numbers -/

/-- The decimal digits that start a text, and what follows them. -/
def readDigits (text : List Char) : List Char × List Char :=
  (text.takeWhile Char.isDigit, text.dropWhile Char.isDigit)

/-- The digits behind a point; none without a point, but at least one with it. -/
def readFraction : List Char → Option (List Char × List Char)
  | '.' :: cs =>
    let (digits, rest) := readDigits cs
    if digits = [] then none else some (digits, rest)
  | cs => some ([], cs)

/-- The sign in front of a power of ten; it is true for a negative one. -/
def readSign : List Char → Bool × List Char
  | '-' :: cs => (true, cs)
  | '+' :: cs => (false, cs)
  | cs => (false, cs)

/-- The power of ten, if there is one; it has at least one digit. -/
def readExponent : List Char → Option (Option (Bool × List Char) × List Char)
  | [] => some (none, [])
  | c :: cs =>
    if c = 'e' ∨ c = 'E' then
      let (negative, rest) := readSign cs
      let (digits, rest) := readDigits rest
      if digits = [] then none else some (some (negative, digits), rest)
    else some (none, c :: cs)

/-- A number behind its sign. -/
def readUnsigned (negative : Bool) (text : List Char) : Option (JsonNumber × List Char) := do
  let (whole, rest) := readDigits text
  -- No number starts with a needless zero.
  if whole = [] ∨ (whole.head? = some '0' ∧ 1 < whole.length) then failure
  let (fraction, rest) ← readFraction rest
  let (exponent?, rest) ← readExponent rest
  return (⟨negative, whole, fraction, exponent?⟩, rest)

/-- The number that starts a text. -/
def readNumber : List Char → Option (JsonNumber × List Char)
  | '-' :: cs => readUnsigned true cs
  | cs => readUnsigned false cs

/-! ## Strings -/

/-- The value of a hexadecimal digit in either case. -/
def hexValue? (c : Char) : Option Nat :=
  if c.isDigit then some (c.toNat - '0'.toNat)
  else if 'a' ≤ c ∧ c ≤ 'f' then some (c.toNat - 'a'.toNat + 10)
  else if 'A' ≤ c ∧ c ≤ 'F' then some (c.toNat - 'A'.toNat + 10)
  else none

/-- The code unit that four hexadecimal digits spell. -/
def hexUnit? (a b c d : Char) : Option Nat := do
  return (((← hexValue? a) * 16 + (← hexValue? b)) * 16 + (← hexValue? c)) * 16 + (← hexValue? d)

/-- The escapes of one letter and the characters they stand for. -/
def letterEscapes : List (Char × Char) :=
  [('"', '"'), ('\\', '\\'), ('/', '/'), ('b', '\x08'), ('f', '\x0c'), ('n', '\n'), ('r', '\r'),
    ('t', '\t')]

/-- The rest of a string, up to its closing quote. -/
def readText : List Char → Option (JsonText × List Char)
  | [] => none
  | '"' :: cs => some ([], cs)
  | '\\' :: 'u' :: a :: b :: c :: d :: cs => do
    let n ← hexUnit? a b c d
    let (units, rest) ← readText cs
    return (.code n :: units, rest)
  | '\\' :: letter :: cs => do
    let c ← letterEscapes.lookup letter
    let (units, rest) ← readText cs
    return (.char c :: units, rest)
  | c :: cs =>
    -- A backslash that starts no escape, or a bare control character.
    if c = '\\' ∨ c.toNat < 0x20 then none
    else (readText cs).map fun read => (.char c :: read.1, read.2)

/-! ## Documents -/

mutual

/-- The document that starts a text.  The fuel bounds the number of tokens. -/
def readValue : Nat → List Char → Option (Json × List Char)
  | 0, _ => none
  | fuel + 1, text =>
    match skipSpace text with
    | '{' :: cs =>
      match skipSpace cs with
      | '}' :: cs => some (.object [], cs)
      | cs => (readMembers fuel cs).map fun read => (.object read.1, read.2)
    | '[' :: cs =>
      match skipSpace cs with
      | ']' :: cs => some (.array [], cs)
      | cs => (readItems fuel cs).map fun read => (.array read.1, read.2)
    | '"' :: cs => (readText cs).map fun read => (.string read.1, read.2)
    | 't' :: 'r' :: 'u' :: 'e' :: cs => some (.bool true, cs)
    | 'f' :: 'a' :: 'l' :: 's' :: 'e' :: cs => some (.bool false, cs)
    | 'n' :: 'u' :: 'l' :: 'l' :: cs => some (.null, cs)
    | cs => (readNumber cs).map fun read => (.number read.1, read.2)

/-- The items of an array that has some, with its closing bracket. -/
def readItems : Nat → List Char → Option (List Json × List Char)
  | 0, _ => none
  | fuel + 1, text =>
    match readValue fuel text with
    | none => none
    | some (item, rest) =>
      match skipSpace rest with
      | ',' :: cs => (readItems fuel cs).map fun read => (item :: read.1, read.2)
      | ']' :: cs => some ([item], cs)
      | _ => none

/-- The members of an object that has some, with its closing brace. -/
def readMembers : Nat → List Char → Option (List (JsonText × Json) × List Char)
  | 0, _ => none
  | fuel + 1, text =>
    match skipSpace text with
    | '"' :: cs =>
      match readText cs with
      | none => none
      | some (name, rest) =>
        match skipSpace rest with
        | ':' :: cs =>
          match readValue fuel cs with
          | none => none
          | some (value, rest) =>
            match skipSpace rest with
            | ',' :: cs =>
              (readMembers fuel cs).map fun read => ((name, value) :: read.1, read.2)
            | '}' :: cs => some ([(name, value)], cs)
            | _ => none
        | _ => none
    | _ => none

end

/-- The document that a text spells, with nothing but space around it. -/
def parse? (text : String) : Option Json :=
  -- Each nested call reads a character, so this fuel is never used up.
  match readValue (2 * text.toList.length + 2) text.toList with
  | some (json, rest) => if skipSpace rest = [] then some json else none
  | none => none

end Json

end Interpolation
