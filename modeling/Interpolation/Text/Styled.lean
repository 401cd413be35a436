/-!
# Styled text

Text for a terminal, with instructions between the texts that change how they look.  Where a
terminal shows no styles, the instructions are left out.

## Main definitions

* `Styled`: texts and instructions.
* `Styled.plain`, `Styled.escaped`: without the instructions, and with their escape sequences.
-/

namespace Interpolation

/-- The colors in use. -/
inductive Color where
  /-- Errors. -/
  | red
  /-- Expressions. -/
  | green
  /-- Remarks. -/
  | cyan
deriving DecidableEq

/-- The digit of a color in an escape sequence. -/
def Color.number : Color → String
  | red => "1"
  | green => "2"
  | cyan => "6"

/-- How text looks. -/
structure Style where
  /-- The color of the letters. -/
  color : Color
  /-- Whether the letters are bold. -/
  bold : Bool
deriving DecidableEq

/-- A piece of text, or an instruction for what follows. -/
inductive Styled where
  /-- A piece of text. -/
  | text (s : String)
  /-- What follows looks like this and like nothing else. -/
  | style (s : Style)
  /-- What follows looks as usual. -/
  | reset

namespace Styled

/-- An escape sequence with one parameter. -/
def sequence (parameter : String) : String := "\x1b[" ++ parameter ++ "m"

/-- A piece without escape sequences. -/
def plainPiece : Styled → String
  | text s => s
  | _ => ""

/-- A piece with escape sequences.  A style begins by undoing the one before. -/
def escapedPiece : Styled → String
  | text s => s
  | style s =>
    sequence "0" ++ (if s.bold then sequence "1" else "") ++ sequence ("3" ++ s.color.number)
  | reset => sequence "0"

/-- The text without any style. -/
def plain (pieces : List Styled) : String := String.join (pieces.map plainPiece)

/-- The text with its styles. -/
def escaped (pieces : List Styled) : String := String.join (pieces.map escapedPiece)

/-- The pieces as a terminal takes them that shows styles or does not. -/
def render (color : Bool) (pieces : List Styled) : String :=
  if color then escaped pieces else plain pieces

end Styled

end Interpolation
