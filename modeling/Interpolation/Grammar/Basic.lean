import Interpolation.Expression.Node
import Interpolation.Grammar.Recogniser
import Interpolation.Grammar.Token

/-!
# The grammar of expressions

```
expression = expr END
expr       = list / group / string / number / boolean / null / path
list       = "(" expr ("," expr)+ ")"
group      = "(" expr ")"
path       = identifier (property / index)*
property   = "." identifier
index      = "[" (string / digits) "]"
```

The four space characters of ASCII may stand between the symbols, but not within a token.

## Main definitions

* `Phrase`: the tree of a phrase, with the numbers that index lists in it.
* `expr`, `expression`: the recognisers of the grammar.
* `parseNode`: the tree of a text.
-/

namespace Interpolation.Grammar

open Recogniser

/-- A number that indexes a list, and where it stands. -/
structure IndexToken where
  /-- Where the number starts. -/
  place : Offset
  /-- The number itself, of any size. -/
  value : Nat

/-- What a phrase means. -/
structure Phrase where
  /-- The tree of the phrase. -/
  node : Node
  /-- The numbers that index lists, in the order of the text. -/
  indices : List IndexToken

/-- The phrase of a literal; no list is indexed in it. -/
def Phrase.literal (value : Value) : Phrase := ⟨.literal value, []⟩

/-- The phrase of a list, put together from its items. -/
def Phrase.list (items : List Phrase) : Phrase :=
  ⟨.list (items.map Phrase.node), items.flatMap Phrase.indices⟩

/-- A step of a path, with the numbers that index lists in it. -/
structure Step where
  /-- The accessor that the step means. -/
  accessor : Accessor
  /-- The number of an index, if the step is one. -/
  indices : List IndexToken

/-- The phrase of a path, put together from its root and its steps. -/
def Phrase.path (root : String) (steps : List Step) : Phrase :=
  ⟨.path ⟨root, steps.map Step.accessor⟩, steps.flatMap Step.indices⟩

/-- The four space characters of ASCII. -/
def isSpace (c : Char) : Bool := c = ' ' || c = '\t' || c = '\r' || c = '\n'

/-- Skips spaces between symbols. -/
def space : Recogniser Unit := skipWhile isSpace

/-- A token, which is named in an error where it is missing. -/
def token (rule : Rule) (lexer : Lexer) : Recogniser (List Char) := named rule (lexeme lexer)

/-! ## Literals -/

/-- A string literal with either kind of quotes. -/
def quotedText : Recogniser String :=
  named .string <| orElse
    (do return singleQuotedValue (← token .singleQuoted singleQuoted))
    (do return doubleQuotedValue (← token .doubleQuoted doubleQuoted))

/-- A literal: a string, a number, a truth value or nothing. -/
def literal : Recogniser Phrase :=
  orElse (do return .literal (.string (← quotedText))) <|
  -- A number is tried before the words, a word before the names of a path.
  orElse (do return .literal (.number (numberValue (← token .number number)))) <|
  orElse (do return .literal (.bool ((← token .boolean boolean) = "true".toList))) <|
  (do let _ ← token .null null; return .literal .nil)

/-! ## Paths -/

/-- A name as a text. -/
def name : Recogniser String := do return String.ofList (← token .identifier identifier)

/-- A number that indexes a list; its place is kept for the check of its size. -/
def indexNumber : Recogniser Step := do
  let place ← place
  let value := digitsValue (← token .integer digits)
  return ⟨.index value, [⟨place, value⟩]⟩

/-- A step to an entry by its name. -/
def property : Recogniser Step :=
  named .property do
    symbol '.'
    space
    return ⟨.property (← name), []⟩

/-- A step in square brackets, by a key or by a number. -/
def index : Recogniser Step :=
  named .index do
    symbol '['
    space
    let step ← orElse (do return ⟨.key (← quotedText), []⟩) indexNumber
    space
    symbol ']'
    return step

/-- A root and any number of steps. -/
def path : Recogniser Phrase :=
  named .path do
    let root ← name
    let steps ← many do
      -- These spaces are given back if no step follows.
      space
      orElse property index
    return .path root steps

/-! ## Parentheses -/

/-- Two or more expressions in parentheses, with commas between them. -/
def list (expr : Recogniser Phrase) : Recogniser Phrase :=
  named .list do
    let item : Recogniser Phrase := do
      space
      symbol ','
      space
      expr
    symbol '('
    space
    let first ← expr
    let second ← item
    let others ← many item
    space
    symbol ')'
    return .list (first :: second :: others)

/-- An expression in parentheses, which means what the expression means. -/
def group (expr : Recogniser Phrase) : Recogniser Phrase :=
  named .group do
    symbol '('
    space
    let phrase ← expr
    space
    symbol ')'
    return phrase

/-- An expression with fewer than `depth` parentheses within each other. -/
def expr : Nat → Recogniser Phrase
  | 0 => fail
  | depth + 1 =>
    -- A group is tried where the list has failed for want of a comma.
    orElse (list (expr depth)) <| orElse (group (expr depth)) <| orElse literal path

/-- A whole expression, with spaces around it and nothing behind them. -/
def expression (depth : Nat) : Recogniser Phrase :=
  named .expression do
    space
    let phrase ← expr depth
    space
    named .endOfInput atEnd
    return phrase

/-! ## Texts -/

/-- The largest number that a machine word holds. -/
def largestIndex : Nat := 0xFFFFFFFFFFFFFFFF

/-- The error that a text is no expression. -/
def malformed (place : Offset) (message : String) : Error :=
  .spanned (.malformedExpression place.chars message) (.between place place)

/-- Recognises a whole text.  There are fewer parentheses in it than the depth that is allowed for,
so the depth never decides. -/
def recognise (text : List Char) : Except Furthest Phrase :=
  match expression (text.length + 1) ⟨.zero, text⟩ .initial with
  | (some (phrase, _), _) => .ok phrase
  | (none, furthest) => .error furthest

/-- The tree of a text.  A text that is an expression has one, unless a number in it is too large to
index a list; then the first such number is at fault. -/
def parseNode (text : String) : Except Error Node :=
  match recognise text.toList with
  | .error furthest => .error (malformed furthest.place furthest.message)
  | .ok phrase =>
    -- A number is converted only once the whole text has been recognised.
    match phrase.indices.find? (largestIndex < ·.value) with
    | some index => .error (malformed index.place "index out of range")
    | none => .ok phrase.node

end Interpolation.Grammar
