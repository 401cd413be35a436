import Interpolation.Json.Writer
import Interpolation.Segment.Basic

/-!
# Segments as JSON

The document of a list of segments, which names the kind, the text and the bytes of each.
-/

namespace Interpolation

/-- The bytes of a piece, by their two ends. -/
def Span.toJson (span : Span) : Json :=
  .ofMembers [("start", .ofNat span.start), ("end", .ofNat span.stop)]

/-- A piece with its kind, its text and its bytes. -/
def Segment.toJson (s : Segment) : Json :=
  .ofMembers
    [("kind", .ofString s.kindName),
      (if s.isExpression then "raw" else "text", .ofString s.text),
      ("span", s.span.toJson)]

end Interpolation
