import Interpolation.Segment.Basic
import Interpolation.Text.Quoted

/-!
# The table of segments

Segments for a reader: one line each, with the kind, the bytes covered and the quoted text.

## Main definitions

* `Segment.row`: the line of a segment.
* `segmentTable`: the lines of all segments.
-/

namespace Interpolation

/-- A text with blanks behind it up to the given number of characters. -/
def padEnd (width : Nat) (text : String) : String :=
  String.ofList (text.toList.rightpad width ' ')

/-- A text with blanks in front of it up to the given number of characters. -/
def padStart (width : Nat) (text : String) : String :=
  String.ofList (text.toList.leftpad width ' ')

/-- A segment in one line: its kind, its bytes and its text. -/
def Segment.row (s : Segment) : String :=
  padEnd 10 s.kindName ++ " " ++ padStart 4 (toString s.span.start) ++ ".."
    ++ padEnd 4 (toString s.span.stop) ++ " " ++ quoted s.text

/-- Some segments, a line for each. -/
def segmentTable (segments : List Segment) : String :=
  "\n".intercalate (segments.map Segment.row)

end Interpolation
