import Interpolation.Text.Combining
import Interpolation.Text.Width.Basic

/-!
# Columns of ligatures

In some scripts letters that follow each other are drawn as one.  Such a ligature is recognised from
its end: a letter that can end one waits for what stands in front of it.

A joiner between the parts of a ligature, or a mark that is never shown, does not keep it apart.
Some ligatures come about only if there is a joiner.

## Main definitions

* `Ligature`: the end of a ligature.
* `Ligature.ofChar?`: the ligatures that a letter can end.
* `Ligature.before`: a character in front of the end of a ligature.
-/

namespace Interpolation

/-- The end of a ligature.  Where a joiner is needed, `joined` tells whether it has been met. -/
inductive Ligature where
  /-- An Arabic alef, which joins a lam. -/
  | alef
  /-- A Hebrew lamed, which joins an alef. -/
  | lamed (joined : Bool)
  /-- A Khmer letter, which is written below another one behind the sign for that. -/
  | subscript
  /-- A Buginese letter for ya, which joins an a with the vowel sign i. -/
  | ya (joined : Bool)
  /-- A Buginese ya with the vowel sign i in front. -/
  | signedYa
  /-- A Tifinagh consonant, which joins another one. -/
  | consonant (joined : Bool)
  /-- A Tifinagh consonant with the mark that joins consonants in front. -/
  | markedConsonant
  /-- A Lisu letter for the second part of a tone. -/
  | tonePart
  /-- The letter i of Old Turkic, which joins the letter for ich. -/
  | orkhonI (joined : Bool)
  /-- The vowel sign e of Kirat Rai, which makes up other vowel signs. -/
  | vowelE
  /-- The vowel sign ai of Kirat Rai, whole or in parts. -/
  | vowelAi
deriving DecidableEq

/-- The forms of the letter alef that end the ligature. -/
def isAlef (c : Char) : Bool :=
  inRanges [(0x622, 0x623), (0x625, 0x625), (0x627, 0x627), (0x671, 0x673), (0x675, 0x675),
    (0x773, 0x774), (0x870, 0x882)] c

/-- The forms of the letter lam that start the ligature. -/
def isLam (c : Char) : Bool :=
  inRanges [(0x644, 0x644), (0x6B5, 0x6B8), (0x76A, 0x76A), (0x8A6, 0x8A6), (0x8C7, 0x8C7)] c

/-- The Khmer letters whose form below another letter takes no column. -/
def isSubscriptLetter (c : Char) : Bool :=
  inRanges [(0x1780, 0x1782), (0x1784, 0x1787), (0x1789, 0x178C), (0x178E, 0x1793),
    (0x1795, 0x1798), (0x179B, 0x179D), (0x17A0, 0x17A0), (0x17A2, 0x17A2), (0x17A7, 0x17A7),
    (0x17AB, 0x17AC), (0x17AF, 0x17AF)] c

/-- The Tifinagh letters that join each other. -/
def isTifinaghConsonant (c : Char) : Bool := inRanges [(0x2D31, 0x2D65), (0x2D6F, 0x2D6F)] c

/-- The ranges of the format characters that letters join across. -/
def joiningFormatRanges : List (Nat × Nat) :=
  [(0xAD, 0xAD), (0x61C, 0x61C), (0x70F, 0x70F), (0x200B, 0x200B), (0x200E, 0x200F),
    (0x202A, 0x202E), (0x2060, 0x2064), (0x206A, 0x206F), (0xFEFF, 0xFEFF), (0x1BCA0, 0x1BCA3),
    (0x1D173, 0x1D17A), (0xE0001, 0xE0001), (0xE0020, 0xE007F)]

/-- Whether Arabic letters join as if a character between them were not there. -/
def isTransparent (c : Char) : Bool :=
  isNonspacing c && !isTifinaghJoiner c || inRanges joiningFormatRanges c

/-- The marks that are never shown. -/
def isIgnorableMark (c : Char) : Bool :=
  inRanges [(0x34F, 0x34F), (0x17B4, 0x17B5), (0x180B, 0x180D), (0x180F, 0x180F),
    (0xFE00, 0xFE0F), (0xE0100, 0xE01EF)] c

/-- Whether a character asks its neighbours to join. -/
def isJoiner (c : Char) : Bool := c.toNat = 0x200D

namespace Ligature

/-- The end of a ligature that a letter can be. -/
def ofChar? (c : Char) : Option Ligature :=
  -- The kinds of letters are disjoint, so the order makes no difference.
  if c.toNat = 0x5DC then some (lamed false)
  else if isAlef c then some alef
  else if isSubscriptLetter c then some subscript
  else if c.toNat = 0x1A10 then some (ya false)
  else if isTifinaghConsonant c then some (consonant false)
  else if c.toNat = 0xA4FC ∨ c.toNat = 0xA4FD then some tonePart
  else if c.toNat = 0x10C03 then some (orkhonI false)
  else if c.toNat = 0x16D67 then some vowelE
  else if c.toNat = 0x16D68 then some vowelAi
  else none

/-- The end of a ligature, with a joiner in front. -/
def join : Ligature → Ligature
  | lamed _ => lamed true
  | ya _ => ya true
  | consonant _ => consonant true
  | orkhonI _ => orkhonI true
  | l => l

/-- The end of a ligature with a letter in front that it joins: the columns that the letter takes
then, and the end that remains for what stands in front of both. -/
def beforeLetter (c : Char) : Ligature → Option (Int × Option Ligature)
  | alef => if isLam c then some (0, none) else none
  | lamed true => if c.toNat = 0x5D0 then some (0, none) else none
  | subscript => if c.toNat = 0x17D2 then some (-1, none) else none
  | ya true => if c.toNat = 0x1A17 then some (0, signedYa) else none
  | signedYa => if c.toNat = 0x1A15 then some (0, none) else none
  | consonant joined =>
    if isTifinaghJoiner c then some (1, markedConsonant)
    else if joined && isTifinaghConsonant c then some (0, none)
    else none
  | markedConsonant => if isTifinaghConsonant c then some (-1, none) else none
  | tonePart => if inRanges [(0xA4F8, 0xA4FB)] c then some (0, none) else none
  | orkhonI true => if c.toNat = 0x10C32 then some (0, none) else none
  | vowelE =>
    if c.toNat = 0x16D63 ∨ c.toNat = 0x16D69 then some (0, none)
    else if c.toNat = 0x16D67 then some (0, vowelAi)
    else if c.toNat = 0x16D68 then some (1, vowelE)
    else none
  | vowelAi => if c.toNat = 0x16D63 then some (0, none) else none
  | lamed false | ya false | orkhonI false => none

/-- The end of a ligature with a character in front: the columns that the character takes then, and
the end that remains.  There is none where the two do not belong together. -/
def before (l : Ligature) (c : Char) : Option (Int × Option Ligature) :=
  -- Arabic letters join across more characters than the others, and need no joiner.
  if l = alef then
    if isTransparent c then some (0, some alef) else l.beforeLetter c
  else if isJoiner c then some (0, some l.join)
  else if isIgnorableMark c then some (0, some l)
  else l.beforeLetter c

end Ligature

end Interpolation
