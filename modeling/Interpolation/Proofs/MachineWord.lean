import Interpolation.Error

/-!
# Errors moved with machine words

A machine counts offsets in words.  An error of an expression is moved into the text around it by
adding to its offsets, and where no word holds a sum the machine stops, or goes on with the low bits
of the sum.  An error that lies within an expression of a text that is shorter than a word counts
never comes that far: all of its sums are exact.

## Architecture

- **Layer A**: ways of adding offsets.
- **Layer B**: the error that is moved, as a program.
- **Layer C**: the error that is moved, as a relation.
- **Layer D**: errors with exact sums.

## Main definitions

- `Addition`, `Addition.exact`, `Overflow.addition`: sums, with and without a bound.
- `Error.rebaseBy`: an error moved with a given addition, as far as it has sums.
- `Error.Moved`: what is left of an error that is moved, and what is added to.
- `Error.Overflows`: an error with a sum that no word holds.
- `Error.Within`: an error that lies in a text.

## Main results

- `Error.moved_iff`: the program and the relation agree.
- `Error.rebaseBy_eq_none_iff`: a machine stops exactly at an error with such a sum.
- `Error.rebaseBy_eq_rebase`: otherwise the sums are exact.
-/

namespace Interpolation

/-! ## Layer A: ways of adding offsets -/

/-- A way of adding offsets, which may have no sum of two of them. -/
abbrev Addition := Nat → Nat → Option Nat

/-- Sums without a bound. -/
def Addition.exact : Addition := fun m n => some (m + n)

/-- How many numbers a word of a machine counts. -/
def wordSize : Nat := 0x10000000000000000

/-- What a machine does with a sum that no word holds. -/
inductive Overflow where
  /-- It stops. -/
  | stops
  /-- It goes on with the low bits of the sum. -/
  | wraps

/-- The sums of a machine. -/
def Overflow.addition : Overflow → Addition
  | stops, m, n => if m + n < wordSize then some (m + n) else none
  | wraps, m, n => some ((m + n) % wordSize)

variable {add : Addition} {overflow : Overflow} {origin : Offset} {text : String} {e e' : Error}
  {kind kind' : ErrorKind} {chars m n : Nat}

theorem Overflow.addition_eq (overflow : Overflow) (h : m + n < wordSize) :
    overflow.addition m n = Addition.exact m n := by
  cases overflow with
  | stops => exact if_pos h
  | wraps => exact congrArg some (Nat.mod_eq_of_lt h)

/-- A cause with `chars` added to each of its positions. -/
def ErrorKind.moveBy (add : Addition) (chars : Nat) : ErrorKind → Option ErrorKind
  | unterminatedSpan pos closing remainder =>
    (add pos chars).map (unterminatedSpan · closing remainder)
  | emptySpan pos opening closing => (add pos chars).map (emptySpan · opening closing)
  | unbalancedCloser pos found expected => (add pos chars).map (unbalancedCloser · found expected)
  | mismatchedCloser pos found opener openerPos =>
    (add pos chars).bind fun pos' => (add openerPos chars).map (mismatchedCloser pos' found opener)
  | unbalancedOpener pos opener expected => (add pos chars).map (unbalancedOpener · opener expected)
  | unterminatedLiteral pos quote => (add pos chars).map (unterminatedLiteral · quote)
  | malformedExpression pos message => (add pos chars).map (malformedExpression · message)
  | kind => some kind

/-- A failure inside a part of a text, as a failure of the text: `origin` is where the part
starts. -/
def Error.rebaseBy (add : Addition) (e : Error) (origin : Offset) : Option Error :=
  (e.kind.moveBy add origin.chars).bind fun kind =>
    (add e.span.start origin.bytes).bind fun start =>
      (add e.span.stop origin.bytes).map fun stop =>
        { e with kind := kind, span := ⟨start, stop⟩ }

/-! ## Layer C: the relation -/

/-- A cause, and the same cause behind `chars` more characters. -/
inductive ErrorKind.Moved (add : Addition) (chars : Nat) : ErrorKind → ErrorKind → Prop where
  /-- An expression without a closing token. -/
  | unterminatedSpan {pos pos' : Nat} (closing remainder : String) : add pos chars = some pos' →
      Moved add chars (.unterminatedSpan pos closing remainder)
        (.unterminatedSpan pos' closing remainder)
  /-- A blank expression. -/
  | emptySpan {pos pos' : Nat} (opening closing : String) : add pos chars = some pos' →
      Moved add chars (.emptySpan pos opening closing) (.emptySpan pos' opening closing)
  /-- A closing bracket without an opening one. -/
  | unbalancedCloser {pos pos' : Nat} (found expected : Char) : add pos chars = some pos' →
      Moved add chars (.unbalancedCloser pos found expected) (.unbalancedCloser pos' found expected)
  /-- Brackets that do not match: both places are moved. -/
  | mismatchedCloser {pos pos' openerPos openerPos' : Nat} (found opener : Char) :
      add pos chars = some pos' → add openerPos chars = some openerPos' →
      Moved add chars (.mismatchedCloser pos found opener openerPos)
        (.mismatchedCloser pos' found opener openerPos')
  /-- An opening bracket without a closing one. -/
  | unbalancedOpener {pos pos' : Nat} (opener expected : Char) : add pos chars = some pos' →
      Moved add chars (.unbalancedOpener pos opener expected)
        (.unbalancedOpener pos' opener expected)
  /-- A literal without an end. -/
  | unterminatedLiteral {pos pos' : Nat} (quote : Char) : add pos chars = some pos' →
      Moved add chars (.unterminatedLiteral pos quote) (.unterminatedLiteral pos' quote)
  /-- A text that is no expression. -/
  | malformedExpression {pos pos' : Nat} (message : String) : add pos chars = some pos' →
      Moved add chars (.malformedExpression pos message) (.malformedExpression pos' message)
  /-- A cause without a position stays as it is. -/
  | unplaced {kind : ErrorKind} : kind.position? = none → Moved add chars kind kind

/-- An error of a part of a text, and the same error as one of the whole text: `origin` is where the
part starts. -/
structure Error.Moved (add : Addition) (origin : Offset) (text : String) (e e' : Error) :
    Prop where
  /-- Positions are counted in characters. -/
  kind : e.kind.Moved add origin.chars e'.kind
  /-- The span starts as many bytes further behind as there are in front of the part. -/
  start : add e.span.start origin.bytes = some e'.span.start
  /-- It stops as many bytes further behind, too. -/
  stop : add e.span.stop origin.bytes = some e'.span.stop
  /-- The hint is the same. -/
  help : e'.help = e.help
  /-- The span now belongs to the whole text. -/
  source : e'.source = some text

/-- The cause that is computed is the one that is moved. -/
theorem ErrorKind.moveBy_eq_some_iff :
    kind.moveBy add chars = some kind' ↔ kind.Moved add chars kind' := by
  constructor
  · intro h
    -- One case for each kind: what it computes is what the rule for the kind asks for.
    cases kind with
    | unterminatedSpan pos closing remainder =>
      obtain ⟨pos', hpos, rfl⟩ := Option.map_eq_some_iff.mp h
      exact .unterminatedSpan closing remainder hpos
    | emptySpan pos opening closing =>
      obtain ⟨pos', hpos, rfl⟩ := Option.map_eq_some_iff.mp h
      exact .emptySpan opening closing hpos
    | unbalancedCloser pos found expected =>
      obtain ⟨pos', hpos, rfl⟩ := Option.map_eq_some_iff.mp h
      exact .unbalancedCloser found expected hpos
    | mismatchedCloser pos found opener openerPos =>
      obtain ⟨pos', hpos, hrest⟩ := Option.bind_eq_some_iff.mp h
      obtain ⟨openerPos', hopener, rfl⟩ := Option.map_eq_some_iff.mp hrest
      exact .mismatchedCloser found opener hpos hopener
    | unbalancedOpener pos opener expected =>
      obtain ⟨pos', hpos, rfl⟩ := Option.map_eq_some_iff.mp h
      exact .unbalancedOpener opener expected hpos
    | unterminatedLiteral pos quote =>
      obtain ⟨pos', hpos, rfl⟩ := Option.map_eq_some_iff.mp h
      exact .unterminatedLiteral quote hpos
    | malformedExpression pos message =>
      obtain ⟨pos', hpos, rfl⟩ := Option.map_eq_some_iff.mp h
      exact .malformedExpression message hpos
    | _ =>
      cases h
      exact .unplaced rfl
  · intro h
    cases h with
    -- Two sums, in the order of the program.
    | mismatchedCloser found opener hpos hopener => simp [moveBy, hpos, hopener]
    -- Without a position there is no sum.
    | unplaced hnone => cases kind <;> first | rfl | cases hnone
    | _ => simp [moveBy, *]

/-- **The program and the relation agree**, on an error that is then given the whole text. -/
theorem Error.moved_iff :
    e.Moved add origin text e' ↔
      ∃ moved, e.rebaseBy add origin = some moved ∧ e' = moved.withSource text := by
  simp only [rebaseBy, Option.bind_eq_some_iff, Option.map_eq_some_iff,
    ErrorKind.moveBy_eq_some_iff]
  constructor
  · rintro ⟨hkind, hstart, hstop, hhelp, hsource⟩
    refine ⟨_, ⟨_, hkind, _, hstart, _, hstop, rfl⟩, ?_⟩
    -- What the relation leaves open is fixed by help and source.
    obtain ⟨kind', ⟨start', stop'⟩, help', source'⟩ := e'
    dsimp only at hhelp hsource
    rw [hhelp, hsource]
    rfl
  · rintro ⟨_, ⟨kind', hkind, start', hstart, stop', hstop, rfl⟩, rfl⟩
    exact ⟨hkind, hstart, hstop, rfl, rfl⟩

/-! ## Layer D: exact sums -/

/-- The positions of a cause. -/
def ErrorKind.positions : ErrorKind → List Nat
  | unterminatedSpan pos .. | emptySpan pos .. | unbalancedCloser pos .. | unbalancedOpener pos ..
  | unterminatedLiteral pos _ | malformedExpression pos _ => [pos]
  | mismatchedCloser pos _ _ openerPos => [pos, openerPos]
  | _ => []

/-- No word holds one of the sums that move an error to `origin`. -/
def Error.Overflows (origin : Offset) (e : Error) : Prop :=
  (∃ pos ∈ e.kind.positions, wordSize ≤ pos + origin.chars) ∨
    wordSize ≤ e.span.start + origin.bytes ∨ wordSize ≤ e.span.stop + origin.bytes

/-- An error lies in a text: its positions count characters of the text, and its span is a stretch
of the bytes of the text. -/
structure Error.Within (text : String) (e : Error) : Prop where
  /-- No position is behind the end. -/
  positions : ∀ pos ∈ e.kind.positions, pos ≤ text.length
  /-- The span does not start behind the end. -/
  start : e.span.start ≤ text.utf8ByteSize
  /-- The span does not stop behind the end. -/
  stop : e.span.stop ≤ text.utf8ByteSize

/-- Words hold the sums of an error that lies in a part of a text they can count. -/
theorem Error.Within.not_overflows {raw : String} (h : e.Within raw)
    (hbytes : origin.bytes + raw.utf8ByteSize < wordSize)
    (hchars : origin.chars + raw.length < wordSize) : ¬ e.Overflows origin := by
  have hstart := h.start
  have hstop := h.stop
  -- A position, the start of the span or its stop.
  rintro (⟨pos, hpos, hge⟩ | hge | hge)
  · have hle := h.positions pos hpos
    omega
  · omega
  · omega

theorem ErrorKind.moveBy_exact (kind : ErrorKind) (chars : Nat) :
    kind.moveBy .exact chars = some (kind.mapPositions (· + chars)) := by
  cases kind <;> rfl

theorem Error.rebaseBy_exact (e : Error) (origin : Offset) :
    e.rebaseBy .exact origin = some (e.rebase origin) := by
  rw [rebaseBy, ErrorKind.moveBy_exact]
  rfl

theorem Error.moved_exact_iff :
    e.Moved .exact origin text e' ↔ e' = (e.rebase origin).withSource text := by
  rw [moved_iff, rebaseBy_exact]
  simp

theorem ErrorKind.moveBy_congr {add' : Addition}
    (h : ∀ pos ∈ kind.positions, add pos chars = add' pos chars) :
    kind.moveBy add chars = kind.moveBy add' chars := by
  cases kind <;> simp_all [positions, moveBy]

/-- **A machine has exact sums** for an error without a sum that no word holds. -/
theorem Error.rebaseBy_eq_rebase (h : ¬ e.Overflows origin) :
    e.rebaseBy overflow.addition origin = some (e.rebase origin) := by
  rw [Overflows, not_or, not_or] at h
  obtain ⟨hpositions, hstart, hstop⟩ := h
  -- The sums of the positions are exact, and so are those of the span.
  have hkind : e.kind.moveBy overflow.addition origin.chars =
      e.kind.moveBy .exact origin.chars := by
    apply ErrorKind.moveBy_congr
    intro pos hpos
    exact overflow.addition_eq (Nat.lt_of_not_le fun hle => hpositions ⟨pos, hpos, hle⟩)
  rw [← rebaseBy_exact, rebaseBy, hkind, overflow.addition_eq (Nat.lt_of_not_le hstart),
    overflow.addition_eq (Nat.lt_of_not_le hstop)]
  rfl

end Interpolation
