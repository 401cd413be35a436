import Interpolation.Text.Offset

/-!
# Spans

A span is a stretch of a text between two byte offsets.  Nothing forces it to lie within a text or
to end behind its start: a span that does not fit a text simply has no lines and columns there.
-/

namespace Interpolation

/-- A stretch of a text, in bytes from the start of the text. -/
structure Span where
  /-- Where the stretch starts. -/
  start : Nat
  /-- Where the stretch stops: the first byte behind it. -/
  stop : Nat
deriving DecidableEq, Inhabited

namespace Span

/-- The empty span at the start of a text, for what has no place of its own. -/
def nowhere : Span := ⟨0, 0⟩

/-- A stretch by its start and its length. -/
def ofLength (start length : Nat) : Span := ⟨start, start + length⟩

/-- The stretch between two places. -/
def between (start stop : Offset) : Span := ⟨start.bytes, stop.bytes⟩

/-- A stretch further on in a text. -/
def shift (span : Span) (bytes : Nat) : Span := ⟨span.start + bytes, span.stop + bytes⟩

/-- The bytes of a stretch. -/
def length (span : Span) : Nat := span.stop - span.start

/-- Line and column of both ends of a span, if both are character boundaries of the text. -/
def lineColumns (span : Span) (text : String) : Option ((Nat × Nat) × (Nat × Nat)) :=
  match lineColumn text span.start, lineColumn text span.stop with
  | some start, some stop => some (start, stop)
  | _, _ => none

end Span

end Interpolation
