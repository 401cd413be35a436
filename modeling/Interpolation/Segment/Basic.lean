import Interpolation.Delimiters.Basic
import Interpolation.Segment.Closing
import Interpolation.Text.Blank

/-!
# Segments

A template is static text with expressions between delimiters.  It is divided from the start to the
end, and each segment is handed to a builder before the next one is looked for, so that the first
failure in the order of the text ends the division, whether the text or the builder is at fault.
Only the outermost delimiters count: what looks like a delimiter within an expression belongs to the
expression.

## Main definitions

* `Segment`: a piece of static text, or an expression without the blanks around it.
* `Builder`: what is made of the segments of a text.
* `nextExpression`: the first expression of a text, with the static text in front of it.
* `divide`: the division of a text, by any builder.
* `segment`: the segments of a text.
-/

namespace Interpolation

/-- A piece of a template, not yet read any further. -/
inductive Segment where
  /-- Static text. -/
  | literal (text : String) (span : Span)
  /-- The text of an expression, without delimiters and without the blanks around it. -/
  | expression (text : String) (span : Span)
deriving DecidableEq

namespace Segment

/-- The text of a piece. -/
def text : Segment → String
  | literal text _ | expression text _ => text

/-- Where the text of a piece stands. -/
def span : Segment → Span
  | literal _ span | expression _ span => span

/-- Whether a piece is an expression. -/
def isExpression : Segment → Bool
  | literal .. => false
  | expression .. => true

/-- The name of a piece's kind. -/
def kindName (s : Segment) : String := if s.isExpression then "expression" else "literal"

end Segment

/-- What is made of the segments of a text.  Static text never fails. -/
structure Builder (τ : Type) where
  /-- Makes a piece of static text. -/
  literal : String → Span → τ
  /-- Makes a piece of the text of an expression. -/
  expression : String → Span → Except Error τ

namespace Builder

variable {τ : Type}

/-- The builder that leaves the pieces as they are. -/
def segments : Builder Segment where
  literal := .literal
  expression text span := .ok (.expression text span)

/-- The piece of the static text that stands at `here`; none if it is empty. -/
def literalAt (build : Builder τ) (here : Offset) (text : List Char) : List τ :=
  if text = [] then []
  else [build.literal (String.ofList text) (.between here (here + extent text))]

/-- The piece of the expression whose body starts at `here` and may have blanks at its ends. -/
def expressionAt (build : Builder τ) (here : Offset) (body : List Char) : Except Error τ :=
  let start := here + extent (body.takeWhile isBlank)
  let text := trim body
  build.expression (String.ofList text) (.between start (start + extent text))

end Builder

/-- The failure of an expression whose closing token does not follow; `remainder` is the text from
its opening token on. -/
def Delimiters.unterminated (d : Delimiters) (start : Offset) (remainder : List Char) : Error :=
  (Error.spanned (.unterminatedSpan start.chars d.closing (String.ofList remainder))
    (.between start (start + extent d.opening.toList))).withHelp
    ("close the expression with '" ++ d.closing ++ "'")

/-- The failure of an expression without text; `stop` is the place behind its closing token. -/
def Delimiters.empty (d : Delimiters) (start stop : Offset) : Error :=
  .spanned (.emptySpan start.chars d.opening d.closing) (.between start stop)

/-- What becomes of the search for the first expression of a text. -/
inductive Reading where
  /-- There is none. -/
  | static
  /-- It has a fault. -/
  | broken (e : Error)
  /-- It stands behind the text `before`. -/
  | expression (before : List Char) (body : Body)

/-- Reads the first expression of the text that starts at `here`. -/
def nextExpression (d : Delimiters) (here : Offset) (text : List Char) : Reading :=
  match splitFirst d.opening.toList text with
  | none => .static
  | some (before, behind) =>
    let start := here + extent before
    let inside := start + extent d.opening.toList
    match bodyOf d.closing.toList inside behind with
    | .error e => .broken e
    | .ok none => .broken (d.unterminated start (d.opening.toList ++ behind))
    | .ok (some body) =>
      -- An expression of blanks is a fault, and it concerns both tokens.
      if trim body.text = [] then
        .broken (d.empty start (inside + extent body.text + extent d.closing.toList))
      else .expression before body

/-- The text behind an expression is shorter than the text the expression was read from. -/
theorem length_rest_lt_of_nextExpression {d : Delimiters} (nonempty : d.opening ≠ "")
    {here : Offset} {text before : List Char} {body : Body}
    (h : nextExpression d here text = .expression before body) :
    body.rest.length < text.length := by
  unfold nextExpression at h
  split at h
  · cases h
  · next hsplit =>
    dsimp only at h
    split at h
    · cases h
    · cases h
    · next hbody =>
      split at h
      · cases h
      · cases h
        -- The opening token at least has been read.
        have hlen := congrArg List.length (splitFirst_eq_some hsplit)
        have hrest := length_rest_le_of_bodyOf hbody
        have hpos : 0 < d.opening.toList.length :=
          List.length_pos_iff.mpr fun h => nonempty (String.toList_eq_nil_iff.mp h)
        simp only [List.length_append] at hlen
        omega

/-- Divides the text that starts at `here` and hands its segments to a builder, in the order of the
text.  The first failure is the outcome. -/
def divide {τ : Type} (d : Delimiters) (nonempty : d.opening ≠ "") (build : Builder τ)
    (here : Offset) (text : List Char) : Except Error (List τ) :=
  if text = [] then .ok []
  else
    match _hnext : nextExpression d here text with
    | .static => .ok (build.literalAt here text)
    | .broken e => .error e
    | .expression before body =>
      let inside := here + extent before + extent d.opening.toList
      match build.expressionAt inside body.text with
      -- What the builder refuses ends the division before the next expression is looked for.
      | .error e => .error e
      | .ok piece =>
        (divide d nonempty build (inside + extent body.text + extent d.closing.toList)
          body.rest).map (build.literalAt here before ++ piece :: ·)
termination_by text.length
decreasing_by exact length_rest_lt_of_nextExpression nonempty _hnext

/-- Divides a text into static text and expressions, without reading the expressions.  A text that
is empty is one empty piece of static text, and without delimiters no text has segments. -/
def segment (text : String) (d : Delimiters) : Except Error (List Segment) :=
  d.guarded fun nonempty =>
    if text = "" then .ok [.literal "" ⟨0, 0⟩]
    else divide d nonempty .segments .zero text.toList

end Interpolation
