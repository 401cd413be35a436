import Interpolation.Decimal.Digits
import Interpolation.Decimal.Nearest

/-!
# Tokens of the expression language

A token is read without looking at blanks: each function gives the lexeme that starts a text and
what follows it.  A lexeme is as long as it can be.

## Main definitions

* `Lexer`: how a token starts a text.
* `identifier`, `digits`, `number`, `keyword`, `singleQuoted`, `doubleQuoted`: the tokens.
* `numberValue`, `singleQuotedValue`, `doubleQuotedValue`: what lexemes stand for.
-/

namespace Interpolation.Grammar

/-- Splits a text behind the lexeme that starts it, if one does. -/
abbrev Lexer := List Char → Option (List Char × List Char)

/-- The characters that start a name. -/
def isNameStart (c : Char) : Bool := c.isAlpha || c = '_'

/-- The characters of a name. -/
def isNameChar (c : Char) : Bool := c.isAlphanum || c = '_'

/-- A letter or an underscore, with the letters, digits and underscores behind it. -/
def identifier : Lexer
  | [] => none
  | c :: cs =>
    if isNameStart c then some (c :: cs.takeWhile isNameChar, cs.dropWhile isNameChar) else none

/-- One digit or more. -/
def digits : Lexer := fun text =>
  let lexeme := text.takeWhile Char.isDigit
  if lexeme = [] then none else some (lexeme, text.dropWhile Char.isDigit)

/-- Digits, perhaps with a point and more digits behind it. -/
def unsigned : Lexer := fun text =>
  match digits text with
  | none => none
  | some (whole, rest) =>
    match rest with
    | '.' :: cs =>
      match digits cs with
      | some (fraction, rest) => some (whole ++ '.' :: fraction, rest)
      -- A point without digits behind it is not part of the number.
      | none => some (whole, '.' :: cs)
    | rest => some (whole, rest)

/-- A number with or without a sign. -/
def number : Lexer
  | '-' :: cs => (unsigned cs).map fun split => ('-' :: split.1, split.2)
  | cs => unsigned cs

/-- A word that no character of a name follows. -/
def keyword (word : List Char) : Lexer := fun text =>
  let rest := text.drop word.length
  if word.isPrefixOf text && !(rest.head?.any isNameChar) then some (word, rest) else none

/-- One of the two truth values. -/
def boolean : Lexer := fun text =>
  keyword "true".toList text <|> keyword "false".toList text

/-- The word for no value. -/
def null : Lexer := keyword "null".toList

/-- The rest of a literal in single quotes, up to its closing quote.  A quote that is written twice
does not close the literal. -/
def untilSingleQuote : Lexer
  | [] => none
  | '\'' :: '\'' :: cs =>
    (untilSingleQuote cs).map fun split => ('\'' :: '\'' :: split.1, split.2)
  | '\'' :: cs => some (['\''], cs)
  | c :: cs => (untilSingleQuote cs).map fun split => (c :: split.1, split.2)

/-- A literal in single quotes. -/
def singleQuoted : Lexer
  | '\'' :: cs => (untilSingleQuote cs).map fun split => ('\'' :: split.1, split.2)
  | _ => none

/-- The rest of a literal in double quotes, up to its closing quote. -/
def untilDoubleQuote : Lexer
  | [] => none
  | '"' :: cs => some (['"'], cs)
  | c :: cs => (untilDoubleQuote cs).map fun split => (c :: split.1, split.2)

/-- A literal in double quotes. -/
def doubleQuoted : Lexer
  | '"' :: cs => (untilDoubleQuote cs).map fun split => ('"' :: split.1, split.2)
  | _ => none

/-! ## What lexemes stand for -/

/-- The floating-point number nearest to digits with or without a point. -/
def unsignedValue (lexeme : List Char) : Float :=
  let whole := lexeme.takeWhile (· ≠ '.')
  let fraction := (lexeme.dropWhile (· ≠ '.')).drop 1
  nearestDecimal (digitsValue (whole ++ fraction)) (-(fraction.length : Int))

/-- The floating-point number of a lexeme with or without a sign. -/
def numberValue : List Char → Float
  | '-' :: lexeme => -unsignedValue lexeme
  | lexeme => unsignedValue lexeme

/-- A text in which each pair of single quotes is written once. -/
def undouble : List Char → List Char
  | [] => []
  | '\'' :: '\'' :: cs => '\'' :: undouble cs
  | c :: cs => c :: undouble cs

/-- What stands between the quotes of a literal. -/
def body (lexeme : List Char) : List Char := (lexeme.drop 1).dropLast

/-- The text of a literal in single quotes. -/
def singleQuotedValue (lexeme : List Char) : String := String.ofList (undouble (body lexeme))

/-- The text of a literal in double quotes, in which no quote can be written. -/
def doubleQuotedValue (lexeme : List Char) : String := String.ofList (body lexeme)

end Interpolation.Grammar
