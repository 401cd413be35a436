import Interpolation.Error
import Interpolation.Text.Styled
import Interpolation.Text.Width.Display

/-!
# Diagnostics

An error as a reader is shown it: where it is, what it is, the line of the text it is in with a
marker below, and the hint.

## Main definitions

* `Snippet`: the line of a text that a span starts in, and the columns to mark.
* `Snippet.ofSpan?`: the snippet of a span.
* `Diagnostic`: an error with the text that it is shown in.
* `Diagnostic.text`: the diagnostic without styles.
-/

namespace Interpolation

/-- A line of a text with some of its columns marked. -/
structure Snippet where
  /-- The number of the line, counted from one. -/
  lineNumber : Nat
  /-- The line itself, without its end. -/
  line : List Char
  /-- The columns in front of the marker. -/
  indent : Nat
  /-- The columns that are marked, at least one. -/
  marked : Nat

namespace Snippet

/-- The part of a line within its first `n` bytes, if it has so many. -/
def within (n : Nat) (line : List Char) : List Char :=
  match cutAt n line with
  | some (front, _) => front
  | none => line

/-- The line that a span starts in, marked as far as the span reaches on it, where `width` measures
the columns of a text.  There is none where an end of the span is no character boundary of the
text. -/
def ofSpan? (width : List Char → Nat) (text : String) (span : Span) : Option Snippet :=
  match cutAt span.start text.toList, cutAt span.stop text.toList with
  | some (before, behind), some _ =>
    let lineStart := lastLine before
    let lineRest := behind.takeWhile (· ≠ '\n')
    some
      { lineNumber := before.count '\n' + 1
        line := lineStart ++ lineRest
        indent := width lineStart
        -- a marker under text without a width is still to be seen
        marked := max 1 (width (within span.length lineRest)) }
  | _, _ => none

/-- The line and the marker below it, with the number of the line in the margin. -/
def render (s : Snippet) : String :=
  let number := (toString s.lineNumber).toList
  let margin := List.replicate number.length ' '
  let bar := [' ', '|', ' ']
  let marker := '^' :: List.replicate (s.marked - 1) '-'
  String.ofList
    (number ++ bar ++ s.line ++ '\n' :: margin ++ bar ++ List.replicate s.indent ' ' ++ marker
      ++ " here\n".toList)

end Snippet

/-- An error with the text that it is shown in, if there is one. -/
structure Diagnostic where
  /-- The error. -/
  error : Error
  /-- The text that it is shown in, if one is known. -/
  source? : Option String

namespace Diagnostic

/-- An error in the text it belongs to. -/
def ofError (e : Error) : Diagnostic := ⟨e, e.source⟩

/-- Where the span of an error is: by line and column if the text allows it, else by bytes. -/
def place (d : Diagnostic) : String :=
  match d.source?.bind d.error.span.lineColumns with
  | some ((line, column), _) =>
    " [at line " ++ toString line ++ ", col " ++ toString column ++ "]"
  | none =>
    " [at " ++ toString d.error.span.start ++ "-" ++ toString d.error.span.stop ++ "]"

/-- Where an error is, if it has a position at all. -/
def place? (d : Diagnostic) : Option String :=
  d.error.kind.position?.map fun _ => d.place

/-- The snippet of an error, if it has a position and its span fits the text. -/
def snippet? (d : Diagnostic) : Option Snippet :=
  match d.error.kind.position?, d.source? with
  | some _, some source => Snippet.ofSpan? displayWidth source d.error.span
  | _, _ => none

/-- The diagnostic with its styles. -/
def styled (d : Diagnostic) : List Styled :=
  [.style ⟨.red, true⟩, .text "Error", .reset, .text (d.place?.getD ""),
    .text (":\n" ++ d.error.message ++ "\n")]
    ++ (match d.snippet? with
      | some snippet => [.text ("\n" ++ snippet.render)]
      | none => [])
    ++ (match d.error.help with
      | some help => [.style ⟨.cyan, false⟩, .text "help", .reset, .text (": " ++ help ++ "\n")]
      | none => [])
    ++ [.reset]

/-- The diagnostic without styles. -/
def text (d : Diagnostic) : String := Styled.plain d.styled

end Diagnostic

end Interpolation
