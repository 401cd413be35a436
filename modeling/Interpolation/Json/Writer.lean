import Interpolation.Json.Basic

/-!
# Writing JSON

Two layouts: on one line without any space, and indented with a line for each item.  Characters
are written as they are, except quotes, backslashes and controls.

## Main definitions

* `Json.compact`: a document on one line.
* `Json.indented`: a document with two blanks of indentation for each level.
-/

namespace Interpolation

/-- The last hexadecimal digit of a number, in lower case. -/
def hexDigit (n : Nat) : Char := Nat.digitChar (n % 16)

/-- A UTF-16 code unit, escaped by its four hexadecimal digits. -/
def escapeCode (n : Nat) : List Char :=
  ['\\', 'u', hexDigit (n / 4096), hexDigit (n / 256), hexDigit (n / 16), hexDigit n]

/-- A character inside a string: quotes, backslashes and controls are escaped, with a letter where
there is one. -/
def writeChar (c : Char) : List Char :=
  if c = '"' then ['\\', '"']
  else if c = '\\' then ['\\', '\\']
  else if c = '\x08' then ['\\', 'b']
  else if c = '\x0c' then ['\\', 'f']
  else if c = '\n' then ['\\', 'n']
  else if c = '\r' then ['\\', 'r']
  else if c = '\t' then ['\\', 't']
  else if c.toNat < 0x20 then escapeCode c.toNat
  else [c]

/-- A unit of a string as it is written. -/
def JsonUnit.write : JsonUnit → List Char
  | .char c => writeChar c
  | .code n => escapeCode n

/-- A string between its quotes. -/
def JsonText.write (text : JsonText) : List Char :=
  '"' :: (text.flatMap JsonUnit.write ++ ['"'])

/-- A number with the sign, the point and the power of ten that it has. -/
def JsonNumber.write (n : JsonNumber) : List Char :=
  -- Without digits behind it there is no point either.
  (if n.negative then ['-'] else []) ++ n.whole
    ++ (if n.fraction = [] then [] else '.' :: n.fraction)
    ++ match n.exponent? with
      | none => []
      | some (negative, digits) => 'e' :: (if negative then '-' :: digits else digits)

namespace Json

mutual

/-- A document without any space. -/
def writeCompact : Json → List Char
  | .null => "null".toList
  | .bool true => "true".toList
  | .bool false => "false".toList
  | .number n => n.write
  | .string text => text.write
  | .array [] => ['[', ']']
  | .array (item :: items) => '[' :: (item.writeCompact ++ writeCompactItems items)
  | .object [] => ['{', '}']
  | .object ((name, value) :: members) =>
    '{' :: (name.write ++ ':' :: (value.writeCompact ++ writeCompactMembers members))

/-- The items behind the first one, and the bracket that closes the array. -/
def writeCompactItems : List Json → List Char
  | [] => [']']
  | item :: items => ',' :: (item.writeCompact ++ writeCompactItems items)

/-- The members behind the first one, and the brace that closes the object. -/
def writeCompactMembers : List (JsonText × Json) → List Char
  | [] => ['}']
  | (name, value) :: members =>
    ',' :: (name.write ++ ':' :: (value.writeCompact ++ writeCompactMembers members))

end

/-- The end of a line, and the indentation of the next one. -/
def newLine (level : Nat) : List Char := '\n' :: List.replicate (2 * level) ' '

mutual

/-- A document over several lines, which starts at a level of indentation. -/
def writeIndented (level : Nat) : Json → List Char
  | .array (item :: items) =>
    '[' :: (newLine (level + 1) ++ item.writeIndented (level + 1)
      ++ writeIndentedItems level items)
  | .object ((name, value) :: members) =>
    '{' :: (newLine (level + 1) ++ name.write ++ ':' :: ' ' :: value.writeIndented (level + 1)
      ++ writeIndentedMembers level members)
  -- What is empty or has no parts stays on its line.
  | json => json.writeCompact

/-- The items behind the first one, each on its own line, and the closing bracket on the last. -/
def writeIndentedItems (level : Nat) : List Json → List Char
  | [] => newLine level ++ [']']
  | item :: items =>
    ',' :: (newLine (level + 1) ++ item.writeIndented (level + 1)
      ++ writeIndentedItems level items)

/-- The members behind the first one, each on its own line, and the closing brace on the last. -/
def writeIndentedMembers (level : Nat) : List (JsonText × Json) → List Char
  | [] => newLine level ++ ['}']
  | (name, value) :: members =>
    ',' :: (newLine (level + 1) ++ name.write ++ ':' :: ' ' :: value.writeIndented (level + 1)
      ++ writeIndentedMembers level members)

end

/-- A document on one line. -/
def compact (json : Json) : String := String.ofList json.writeCompact

/-- A document over several lines, with two blanks for each level. -/
def indented (json : Json) : String := String.ofList (json.writeIndented 0)

end Json

end Interpolation
