/-!
# Offsets into a text

A text is counted in two ways: spans are in UTF-8 bytes, messages are in characters.  An `Offset`
carries both counts, and the offset behind a run of characters is the sum over the run, so the two
counts never have to be converted into one another while a text is read.

## Main definitions

* `Offset`: a place in a text, as a byte count and a character count.
* `extent`: how far a run of characters reaches.
* `cutAt`: the two halves of a text at a byte offset that lies on a character boundary.
* `charOffset`, `lineColumn`: a byte offset as a character count, and as a line and a column.
-/

namespace Interpolation

/-- A place in a text, counted from the start of the text. -/
@[ext] structure Offset where
  /-- UTF-8 bytes in front of the place. -/
  bytes : Nat
  /-- Characters in front of the place. -/
  chars : Nat
deriving DecidableEq, Inhabited

namespace Offset

/-- The start of a text. -/
def zero : Offset := ⟨0, 0⟩

/-- The place at offset `d` from the place `o`. -/
def add (o d : Offset) : Offset := ⟨o.bytes + d.bytes, o.chars + d.chars⟩

instance : Add Offset := ⟨Offset.add⟩

@[simp] theorem bytes_add (o d : Offset) : (o + d).bytes = o.bytes + d.bytes := rfl

@[simp] theorem chars_add (o d : Offset) : (o + d).chars = o.chars + d.chars := rfl

@[simp] theorem add_zero (o : Offset) : o + zero = o := rfl

@[simp] theorem zero_add (o : Offset) : zero + o = o :=
  Offset.ext (Nat.zero_add _) (Nat.zero_add _)

/-- Three stretches in a row can be taken together either way. -/
theorem add_assoc (o d e : Offset) : o + d + e = o + (d + e) :=
  Offset.ext (Nat.add_assoc ..) (Nat.add_assoc ..)

end Offset

/-- How far one character reaches. -/
def Offset.ofChar (c : Char) : Offset := ⟨c.utf8Size, 1⟩

/-- How far a run of characters reaches: the offset just behind it when it starts a text. -/
def extent : List Char → Offset
  | [] => .zero
  | c :: cs => .ofChar c + extent cs

@[simp] theorem extent_nil : extent [] = .zero := rfl

@[simp] theorem extent_cons (c : Char) (cs : List Char) :
    extent (c :: cs) = .ofChar c + extent cs := rfl

/-- Extents add up along a text. -/
theorem extent_append (xs ys : List Char) : extent (xs ++ ys) = extent xs + extent ys := by
  induction xs with
  | nil => simp
  | cons c cs ih => simp [ih, Offset.add_assoc]

/-- An extent counts each character once. -/
@[simp] theorem chars_extent (cs : List Char) : (extent cs).chars = cs.length := by
  induction cs with
  | nil => rfl
  | cons c cs ih => simp [ih, Offset.ofChar, Nat.add_comm]

/-- The halves of a text in front of and behind byte offset `n`.  There are none where `n` lies
behind the end of the text or inside a character. -/
def cutAt (n : Nat) : List Char → Option (List Char × List Char)
  | [] => if n = 0 then some ([], []) else none
  | c :: cs =>
    if n = 0 then some ([], c :: cs)
    -- The offset falls inside this character.
    else if n < c.utf8Size then none
    else (cutAt (n - c.utf8Size) cs).map fun halves => (c :: halves.1, halves.2)

/-- Number of characters in front of byte offset `n`; an offset that is no character boundary of
the text counts as itself. -/
def charOffset (text : String) (n : Nat) : Nat :=
  match cutAt n text.toList with
  | some (before, _) => before.length
  | none => n

/-- What stands behind the last line feed. -/
def lastLine (text : List Char) : List Char :=
  (text.reverse.takeWhile (· ≠ '\n')).reverse

/-- The line and the column of byte offset `n`, both counted from one; columns count characters and
only a line feed ends a line. -/
def lineColumn (text : String) (n : Nat) : Option (Nat × Nat) :=
  (cutAt n text.toList).map fun halves =>
    (halves.1.count '\n' + 1, (lastLine halves.1).length + 1)

end Interpolation
