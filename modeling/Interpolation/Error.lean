import Interpolation.Span

/-!
# Errors

Everything that can go wrong when a template is divided, parsed, evaluated or run from the command
line is one `Error`: the cause, the span it concerns, an optional hint, and, once known, the text
the span belongs to.

## Main definitions

* `ErrorKind`: the causes, each with the places and the characters it involves.
* `ErrorKind.message`, `ErrorKind.inserts`, `ErrorKind.code`: how a cause is told.
* `Error.rebase`, `Error.withCharPositions`: an error moved into the text around it.
* `Error.labels`: the stretches of the source text that an error points at.
-/

namespace Interpolation

/-- The two tokens that mark an expression. -/
inductive DelimiterToken where
  /-- The token in front of an expression. -/
  | opening
  /-- The token behind an expression. -/
  | closing
deriving DecidableEq

/-- The name of a token in a message. -/
def DelimiterToken.name : DelimiterToken → String
  | .opening => "prefix"
  | .closing => "suffix"

/-- The causes of failure.  Positions count characters from the start of the text. -/
inductive ErrorKind where
  /-- An expression is opened and its closing token does not follow. -/
  | unterminatedSpan (pos : Nat) (closing remainder : String)
  /-- The two tokens have nothing but blanks between them. -/
  | emptySpan (pos : Nat) (opening closing : String)
  /-- A closing bracket has no bracket to close. -/
  | unbalancedCloser (pos : Nat) (found expected : Char)
  /-- A closing bracket is not the partner of the innermost open bracket. -/
  | mismatchedCloser (pos : Nat) (found opener : Char) (openerPos : Nat)
  /-- An opening bracket is never closed. -/
  | unbalancedOpener (pos : Nat) (opener expected : Char)
  /-- A string literal is never closed. -/
  | unterminatedLiteral (pos : Nat) (quote : Char)
  /-- The text between the tokens is no expression. -/
  | malformedExpression (pos : Nat) (message : String)
  /-- A delimiter is empty. -/
  | invalidDelimiter (token : DelimiterToken)
  /-- An expression that stands alone is blank. -/
  | blankExpression
  /-- A delimiter configuration cannot be read. -/
  | invalidConfig (message : String)
  /-- An expression that is no place for a value is assigned to. -/
  | notWritable (expression : String)
  /-- An expression has no value in the scope at hand. -/
  | evaluation (message : String)
  /-- The surroundings of a command fail it. -/
  | inputOutput (message : String)
deriving DecidableEq

/-- One detail of an error, in the order in which its message names them. -/
inductive Insert where
  /-- A position. -/
  | offset (pos : Nat)
  /-- A bracket or a quote. -/
  | character (c : Char)
  /-- A piece of text. -/
  | token (text : String)
deriving DecidableEq

namespace ErrorKind

/-- A cause in words. -/
def message : ErrorKind → String
  | unterminatedSpan pos closing remainder =>
    "No ending suffix '" ++ closing ++ "' for expression starting at character " ++ toString pos
      ++ ": " ++ remainder
  | emptySpan pos opening closing =>
    "No expression defined within delimiter '" ++ opening ++ closing ++ "' at character "
      ++ toString pos
  | unbalancedCloser pos found expected =>
    "Found closing '" ++ found.toString ++ "' at position " ++ toString pos
      ++ " without an opening '" ++ expected.toString ++ "'"
  | mismatchedCloser pos found opener openerPos =>
    "Found closing '" ++ found.toString ++ "' at position " ++ toString pos
      ++ " but most recent opening is '" ++ opener.toString ++ "' at position "
      ++ toString openerPos
  | unbalancedOpener pos opener expected =>
    "Missing closing '" ++ expected.toString ++ "' for '" ++ opener.toString ++ "' at position "
      ++ toString pos
  | unterminatedLiteral pos _ =>
    "Found non terminating string literal starting at position " ++ toString pos
  | malformedExpression pos message => message ++ " (at position " ++ toString pos ++ ")"
  | invalidDelimiter token =>
    "Invalid delimiter: the expression " ++ token.name ++ " must not be empty"
  | blankExpression => "Expression string must not be blank"
  | invalidConfig message => "Invalid parser context: " ++ message
  | notWritable expression => "Cannot set value on read-only expression '" ++ expression ++ "'"
  | evaluation message => "Evaluation failed: " ++ message
  | inputOutput message => "I/O error: " ++ message

/-- The details that a message names, in their order. -/
def inserts : ErrorKind → List Insert
  | unterminatedSpan pos closing remainder => [.token closing, .offset pos, .token remainder]
  | emptySpan pos opening closing => [.token (opening ++ closing), .offset pos]
  | unbalancedCloser pos found expected => [.character found, .offset pos, .character expected]
  | mismatchedCloser pos found opener openerPos =>
    [.character found, .offset pos, .character opener, .offset openerPos]
  | unbalancedOpener pos opener expected => [.character expected, .character opener, .offset pos]
  | unterminatedLiteral pos quote => [.character quote, .offset pos]
  | malformedExpression pos message => [.token message, .offset pos]
  | invalidDelimiter token => [.token token.name]
  | blankExpression => []
  | invalidConfig message | evaluation message | inputOutput message => [.token message]
  | notWritable expression => [.token expression]

/-- The code under which a cause is known, within the codes of this program. -/
def codeName : ErrorKind → String
  | unterminatedSpan .. => "unterminated_span"
  | emptySpan .. => "empty_span"
  | unbalancedCloser .. => "unbalanced_closer"
  | mismatchedCloser .. => "mismatched_closer"
  | unbalancedOpener .. => "unbalanced_opener"
  | unterminatedLiteral .. => "unterminated_literal"
  | malformedExpression .. => "expression"
  | invalidDelimiter _ => "invalid_delimiter"
  | blankExpression => "blank_expression"
  | invalidConfig _ => "invalid_config"
  | notWritable _ => "not_writable"
  | evaluation _ => "evaluation"
  | inputOutput _ => "io"

/-- The full code of a cause. -/
def code (kind : ErrorKind) : String := "templex::" ++ kind.codeName

/-- The position of a cause, if it lies in a text. -/
def position? : ErrorKind → Option Nat
  | unterminatedSpan pos .. | emptySpan pos .. | unbalancedCloser pos ..
  | mismatchedCloser pos .. | unbalancedOpener pos .. | unterminatedLiteral pos _
  | malformedExpression pos _ => some pos
  | _ => none

/-- A cause that lies in the text of a template has a position there; no other has one. -/
def isParseError (kind : ErrorKind) : Bool := kind.position?.isSome

/-- A cause with its positions counted otherwise; a cause without one stays as it is. -/
def mapPositions (f : Nat → Nat) : ErrorKind → ErrorKind
  | unterminatedSpan pos closing remainder => unterminatedSpan (f pos) closing remainder
  | emptySpan pos opening closing => emptySpan (f pos) opening closing
  | unbalancedCloser pos found expected => unbalancedCloser (f pos) found expected
  | mismatchedCloser pos found opener openerPos =>
    -- Both of its places are positions.
    mismatchedCloser (f pos) found opener (f openerPos)
  | unbalancedOpener pos opener expected => unbalancedOpener (f pos) opener expected
  | unterminatedLiteral pos quote => unterminatedLiteral (f pos) quote
  | malformedExpression pos message => malformedExpression (f pos) message
  | kind => kind

/-- What the span of an error is called where it is pointed at. -/
def label : ErrorKind → String
  | unterminatedSpan .. => "expression starts here"
  | emptySpan .. => "empty expression"
  | unbalancedCloser .. => "unexpected closing bracket"
  | mismatchedCloser .. => "mismatched closing bracket"
  | unbalancedOpener .. => "never closed"
  | unterminatedLiteral .. => "string literal starts here"
  | malformedExpression .. => "invalid expression"
  | _ => "here"

end ErrorKind

/-- A failure: its cause, where it lies, and in which text. -/
structure Error where
  /-- The cause. -/
  kind : ErrorKind
  /-- The bytes concerned; the empty span at the start for a cause without a position. -/
  span : Span
  /-- A hint at how to mend the text. -/
  help : Option String
  /-- The text that the span belongs to, once it is known. -/
  source : Option String

/-- A stretch of the source text with a remark. -/
structure Label where
  /-- The remark. -/
  text : String
  /-- The first byte of the stretch. -/
  start : Nat
  /-- The number of bytes. -/
  length : Nat
deriving DecidableEq

namespace Error

/-- A failure at a span, with neither hint nor source text. -/
def spanned (kind : ErrorKind) (span : Span) : Error := ⟨kind, span, none, none⟩

/-- A failure that lies in no text. -/
def unspanned (kind : ErrorKind) : Error := spanned kind .nowhere

/-- A failure in words. -/
def message (e : Error) : String := e.kind.message

/-- Two failures are the same if their causes and their spans are; hint and source text do not
count. -/
instance : BEq Error := ⟨fun e f => e.kind == f.kind && e.span == f.span⟩

/-- A failure with a hint. -/
def withHelp (e : Error) (help : String) : Error := { e with help := some help }

/-- A failure with the text its span belongs to, in place of an earlier one. -/
def withSource (e : Error) (text : String) : Error := { e with source := some text }

/-- A failure inside a part of a text, as a failure of the text: `origin` is where the part starts.
The sums are exact: a word of a machine holds them for any failure that lies in the part, whatever
the machine does with sums that no word holds. -/
def rebase (e : Error) (origin : Offset) : Error :=
  { e with kind := e.kind.mapPositions (· + origin.chars), span := e.span.shift origin.bytes }

/-- A failure whose positions were counted in bytes of `text`, with positions in characters. -/
def withCharPositions (e : Error) (text : String) : Error :=
  { e with kind := e.kind.mapPositions (charOffset text) }

/-- The stretches of its source text that a failure points at: its span, and for brackets that do
not match also the opening one, counted in the unit of its position. -/
def labels (e : Error) : Option (List Label) :=
  e.source.map fun _ =>
    ⟨e.kind.label, e.span.start, e.span.length⟩ ::
      match e.kind with
      -- The place counts characters, though a label counts bytes.
      | .mismatchedCloser _ _ opener openerPos =>
        [⟨"'" ++ opener.toString ++ "' opened here", openerPos, 1⟩]
      | _ => []

end Error

end Interpolation
