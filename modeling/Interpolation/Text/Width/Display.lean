import Interpolation.Text.Width.Pictograph

/-!
# Terminal columns of texts

The columns that a text takes on a terminal.  For most texts they are the sum over the characters.
What makes a difference always stands behind a character: the rest of a ligature, the rest of a
pictograph, or a selector between several forms of the character.  So a text is measured from its
end, and of what has been measured only the start has to be remembered.

## Main definitions

* `Following`: what is remembered of the text behind a character.
* `Following.prepend`: the columns of a character in front of a text.
* `displayWidth`: the columns of a text.

## Main statements

* `displayWidth_eq_length`: a text of printable ASCII takes a column for each character.
-/

namespace Interpolation

/-- Which form a character is asked to take. -/
inductive Selector where
  /-- As a pictograph. -/
  | pictograph
  /-- As text. -/
  | text
  /-- As wide as an ideograph; it is meant for quotation marks. -/
  | wide
deriving DecidableEq

/-- The selector that a character is. -/
def Selector.ofChar? (c : Char) : Option Selector :=
  if c.toNat = 0xFE0F then some .pictograph
  else if c.toNat = 0xFE0E then some .text
  else if c.toNat = 0xFE01 then some .wide
  else none

/-- Whether a character is a quotation mark that is high and curled. -/
def isCurledQuote (c : Char) : Bool := inRanges [(0x2018, 0x2019), (0x201C, 0x201D)] c

/-- What a text starts with, as far as it makes a difference to what is in front. -/
inductive Start where
  /-- The end of a ligature. -/
  | ligature (l : Ligature)
  /-- A part of a pictograph. -/
  | pictorial (p : Pictorial)
  /-- A line feed; a carriage return in front of it takes no column. -/
  | lineFeed
  /-- Anything that makes no difference to the character in front. -/
  | other
deriving DecidableEq

namespace Start

/-- The start of a text that begins with a character and is not joined to it. -/
def ofChar (c : Char) : Start :=
  if c = '\n' then lineFeed
  else
    match Ligature.ofChar? c, Pictorial.ofChar? c with
    | some l, _ => ligature l
    | none, some p => pictorial p
    | none, none => other

/-- A character in front of a text: the columns that it takes then, and the start of the two.  There
is none where they do not belong together. -/
def before (c : Char) : Start → Option (Int × Start)
  | ligature l => (l.before c).map fun step => (step.1, (step.2.map ligature).getD other)
  | pictorial p => (p.before c).map fun step => (step.1, pictorial step.2)
  -- The two characters are one line end, which takes the column of the line feed.
  | lineFeed => if c = '\r' then some (0, other) else none
  | other => none

/-- The start that remains of a text when a selector has come to nothing: a ligature goes on as if
it were not there. -/
def withoutSelector : Start → Start
  | ligature l => ligature l
  | _ => other

/-- Whether a text starts with a joiner that a pictograph is asked for in front of. -/
def joinsSelected (start : Start) : Bool := start = pictorial .joiner || start = pictorial .keycap

end Start

/-- What is remembered of the text behind a character. -/
structure Following where
  /-- The selector that the text starts with. -/
  selector? : Option Selector
  /-- What the text starts with, a selector aside. -/
  start : Start
deriving DecidableEq

namespace Following

/-- Nothing stands behind. -/
def nothing : Following := ⟨none, .other⟩

/-- A text with a selector in front.  What is joined to a pictograph stays joined only if the
selector asks for a pictograph. -/
def select (s : Selector) (start : Start) : Following :=
  if s = .pictograph ∧ start.joinsSelected then ⟨some s, start⟩
  else ⟨some s, start.withoutSelector⟩

/-- The columns of a character that a selector behind it is meant for, and the start of the two. -/
def selected? (c : Char) (start : Start) : Selector → Option (Int × Start)
  | .pictograph =>
    if hasVariants c then some (if start.joinsSelected then 0 else 2, .pictorial .complete)
    else none
  | .text => if isNarrowAsText c then some (1, .other) else none
  | .wide => if isCurledQuote c then some (2, .other) else none

/-- The columns of a character in front of a text that starts without a selector. -/
def prependTo (c : Char) (start : Start) : Int × Following :=
  match Selector.ofChar? c with
  | some s => (0, select s start)
  | none =>
    match start.before c with
    | some (columns, start) => (columns, ⟨none, start⟩)
    | none => (charWidth c, ⟨none, .ofChar c⟩)

/-- The columns that a character adds to the text behind it, and what is remembered of the two. -/
def prepend (c : Char) (f : Following) : Int × Following :=
  match f.selector? with
  | none => prependTo c f.start
  | some s =>
    match selected? c f.start s with
    | some (columns, start) => (columns, ⟨none, start⟩)
    -- The selector is meant for another character, so it counts for nothing.
    | none => prependTo c f.start.withoutSelector

end Following

/-- The columns of a text, and what has to be remembered of it. -/
def measure (text : List Char) : Int × Following :=
  text.foldr
    (fun c behind =>
      let (added, f) := behind.2.prepend c
      (added + behind.1, f))
    (0, .nothing)

/-- The columns of a text. -/
def displayWidth (text : List Char) : Nat := (measure text).1.toNat

@[simp] theorem measure_nil : measure [] = (0, .nothing) := rfl

@[simp] theorem measure_cons (c : Char) (cs : List Char) :
    measure (c :: cs)
      = (((measure cs).2.prepend c).1 + (measure cs).1, ((measure cs).2.prepend c).2) := rfl

/-! ## Printable ASCII -/

theorem Ligature.ofChar?_of_ascii {c : Char} (h : c.toNat < 0x7F) : ofChar? c = none := by
  have halef : isAlef c = false := inRanges_eq_false_of_lt h (by decide)
  have hsubscript : isSubscriptLetter c = false := inRanges_eq_false_of_lt h (by decide)
  have hconsonant : isTifinaghConsonant c = false := inRanges_eq_false_of_lt h (by decide)
  simp only [ofChar?, halef, hsubscript, hconsonant, Bool.false_eq_true, if_false]
  repeat rw [if_neg (by omega)]

theorem Pictorial.ofChar?_of_ascii {c : Char} (h : c.toNat < 0x7F) : ofChar? c = none := by
  have htone : isTone c = false := inRanges_eq_false_of_lt h (by decide)
  have hflag : isFlagLetter c = false := inRanges_eq_false_of_lt h (by decide)
  have hpictograph : isPictograph c = false := inRanges_eq_false_of_lt h (by decide)
  simp [ofChar?, htone, hflag, hpictograph]

/-- Printable ASCII takes a column and makes no difference to what is in front of it. -/
theorem Following.prepend_nothing_of_ascii {c : Char} (h : 0x20 ≤ c.toNat ∧ c.toNat < 0x7F) :
    Following.nothing.prepend c = (1, .nothing) := by
  have hselector : Selector.ofChar? c = none := by
    unfold Selector.ofChar?
    repeat rw [if_neg (by omega)]
  have hfeed : c ≠ '\n' := by
    rintro rfl
    exact absurd h (by decide)
  have hstart : Start.ofChar c = .other := by
    simp [Start.ofChar, hfeed, Ligature.ofChar?_of_ascii h.2, Pictorial.ofChar?_of_ascii h.2]
  have hwidth : charWidth c = 1 := if_pos (by omega)
  simp [prepend, prependTo, nothing, hselector, Start.before, hstart, hwidth]

/-- A text of printable ASCII takes a column for each character. -/
theorem displayWidth_eq_length {text : List Char}
    (h : ∀ c ∈ text, 0x20 ≤ c.toNat ∧ c.toNat < 0x7F) : displayWidth text = text.length := by
  have hm : measure text = ((text.length : Int), Following.nothing) := by
    induction text with
    | nil => rfl
    -- The text behind leaves nothing to remember, so the character counts by itself.
    | cons c cs ih =>
      have hc := h c List.mem_cons_self
      have hcs := ih fun d hd => h d (List.mem_cons_of_mem c hd)
      simp [hcs, Following.prepend_nothing_of_ascii hc, Int.add_comm]
  simp [displayWidth, hm]

end Interpolation
