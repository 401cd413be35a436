import Interpolation.Segment.Basic
import Interpolation.Template.Basic

/-!
# Reading templates

A template is divided into segments, and a parser for single expressions reads the text of each
expression.  Of several faults the first in the order of the text is reported, and where it lies is
told in terms of the whole template.

## Main definitions

* `SubParser`: a parser for single expressions.
* `parseTemplate`: reads a template.
* `parseInput`: reads a template, or a single expression where the configuration says so.
-/

namespace Interpolation

/-- A parser for the text of one expression.  Faults are told in terms of that text. -/
abbrev SubParser (ε : Type) := String → Delimiters → Except Error ε

variable {ε : Type}

/-- The builder of the pieces of a template.  What the parser finds wrong with an expression is told
in terms of the whole text. -/
def Builder.parts (parser : SubParser ε) (d : Delimiters) (text : String) : Builder (Part ε) where
  literal static _ := .literal static
  expression raw span :=
    match parser raw d with
    | .ok e => .ok (.expression e)
    | .error e => .error (e.rebase ⟨span.start, charOffset text span.start⟩)

/-- Reads a template.  Neither delimiter may be empty, and an empty text is static text. -/
def parseTemplate (parser : SubParser ε) (text : String) (d : Delimiters) :
    Except Error (Template ε) :=
  d.guarded fun nonempty =>
    if text = "" then .ok (.literal "")
    else
      match divide d nonempty (.parts parser d text) .zero text.toList with
      | .error e => .error (e.withSource text)
      | .ok parts => .ok (.ofParts text parts)

/-- Reads input that is one expression, which must not be blank. -/
def parseSingle (parser : SubParser ε) (text : String) (d : Delimiters) :
    Except Error (Template ε) :=
  if trim text.toList = [] then .error (.unspanned .blankExpression)
  else
    match parser text d with
    | .ok e => .ok (.expression e)
    | .error e => .error (e.withSource text)

/-- Reads a template where the configuration says so, and a single expression otherwise.  Without a
configuration the input is a single expression. -/
def parseInput (parser : SubParser ε) (text : String) (d? : Option Delimiters) :
    Except Error (Template ε) :=
  match d? with
  | none => parseSingle parser text .raw
  | some d => if d.template then parseTemplate parser text d else parseSingle parser text d

end Interpolation
