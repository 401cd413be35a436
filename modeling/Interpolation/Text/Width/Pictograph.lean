import Interpolation.Text.Emoji
import Interpolation.Text.Width.Ligature

/-!
# Columns of pictographs

A pictograph takes two columns, however many characters make it up: a person with a tone of skin,
the two letters of a flag, the name of a region behind a flag, or several pictographs with joiners
between them.  Such a sequence is recognised from its end.

## Main definitions

* `Pictorial`: what a text starts with that can be part of a sequence.
* `Pictorial.before`: a character in front of it.
-/

namespace Interpolation

/-- What a text starts with that can be part of a sequence. -/
inductive Pictorial where
  /-- A pictograph that is complete. -/
  | complete
  /-- A tone of skin. -/
  | tone
  /-- A letter of a flag, and no letter behind it. -/
  | flagLetter
  /-- Letters of flags. -/
  | flagLetters
  /-- A joiner that has a pictograph behind it. -/
  | joiner
  /-- The frame of a key in front of a joiner. -/
  | keycap
  /-- A letter of a flag in front of a joiner. -/
  | joinedLetter
  /-- Letters of flags in front of a joiner, an even number of them. -/
  | joinedEven
  /-- Letters of flags in front of a joiner, an odd number of them and more than one. -/
  | joinedOdd
  /-- The last letters of the name of a region in front of a joiner. -/
  | regionLetters (n : Nat)
  /-- The last digits of the number of a region in front of a joiner. -/
  | regionDigits (n : Nat)
deriving DecidableEq

namespace Pictorial

/-- What a character is that no other one of a sequence stands behind. -/
def ofChar? (c : Char) : Option Pictorial :=
  if isTone c then some tone
  else if isFlagLetter c then some flagLetter
  else if isPictograph c then some complete
  else none

/-- A character in front of a joiner that has a pictograph behind it. -/
def beforeJoiner (c : Char) : Option (Int × Pictorial) :=
  if c.toNat = 0x20E3 then some (0, keycap)
  else if isFlagLetter c then some (1, joinedLetter)
  else if isTone c then some (0, tone)
  else if c.toNat = 0xE007F then some (0, regionLetters 0)
  else if isPictograph c then some (0, complete)
  else none

/-- The letters that the name of a region has at least, and at most. -/
def regionLengths : Nat × Nat := (3, 6)

/-- How many digits the number of a region has. -/
def regionDigitCount : Nat := 3

/-- The letters that the number of a region may have behind it. -/
def regionSuffixLength : Nat := 4

/-- Whether a character is the flag that the name of a region stands behind. -/
def isBlackFlag (c : Char) : Bool := c.toNat = 0x1F3F4

/-- A character in front of a part of a pictograph: the columns that it takes then, and the part
that the two make up.  There is none where they do not belong together. -/
def before (c : Char) : Pictorial → Option (Int × Pictorial)
  | complete => if isJoiner c then some (0, joiner) else none
  | tone =>
    if isToneBase c then some (0, complete) else if isJoiner c then some (0, joiner) else none
  | flagLetter => if isFlagLetter c then some (1, flagLetters) else none
  | flagLetters =>
    if isFlagLetter c then some (1, flagLetters)
    else if isJoiner c then some (0, joiner)
    else none
  | joiner => beforeJoiner c
  | keycap => none
  | joinedLetter => if isFlagLetter c then some (-1, joinedEven) else none
  | joinedEven =>
    if isFlagLetter c then some (3, joinedOdd)
    else if isJoiner c then some (0, joiner)
    else none
  | joinedOdd =>
    if isFlagLetter c then some (-1, joinedEven)
    else if isJoiner c then some (0, joiner)
    else none
  | regionLetters n =>
    if isTagLetter c ∧ n < regionLengths.2 then some (0, regionLetters (n + 1))
    else if isTagDigit c ∧ n ≤ regionSuffixLength then some (0, regionDigits 1)
    else if isBlackFlag c ∧ regionLengths.1 ≤ n then some (0, complete)
    else none
  | regionDigits n =>
    if isTagDigit c ∧ n < regionDigitCount then some (0, regionDigits (n + 1))
    else if isBlackFlag c ∧ n = regionDigitCount then some (0, complete)
    else none

end Pictorial

end Interpolation
