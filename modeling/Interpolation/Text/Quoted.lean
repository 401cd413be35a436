import Interpolation.Text.Unprintable

/-!
# Quoted text

A text between double quotes, on one line, in which every character can be seen.  Quotes and
backslashes are escaped, line ends and tabs have an escape of one letter, and what does not show is
written by its code point.

## Main definitions

* `escape`: the written form of one character.
* `quoted`: the written form of a text.
-/

namespace Interpolation

/-- The code point of a character between braces, in hexadecimal digits. -/
def escapeCodePoint (c : Char) : List Char :=
  '\\' :: 'u' :: '{' :: (Nat.toDigits 16 c.toNat ++ ['}'])

/-- A character as it is written between quotes. -/
def escape (c : Char) : List Char :=
  if c = '"' then ['\\', '"']
  else if c = '\\' then ['\\', '\\']
  else if c = '\n' then ['\\', 'n']
  else if c = '\r' then ['\\', 'r']
  else if c = '\t' then ['\\', 't']
  else if c = '\x00' then ['\\', '0']
  else if isUnprintable c then escapeCodePoint c
  else [c]

/-- A text between quotes. -/
def quoted (text : String) : String :=
  String.ofList ('"' :: (text.toList.flatMap escape ++ ['"']))

end Interpolation
