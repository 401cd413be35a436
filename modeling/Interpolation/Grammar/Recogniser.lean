import Interpolation.Text.Offset

/-!
# Recognisers

A recogniser reads what it knows from the front of a text, or fails.  Choices are ordered: the
second alternative is tried only where the first has failed, and a repetition never gives back what
it has read.

A text that is refused is explained by the furthest place at which a rule has failed, and by the
rules that were attempted there.  All failures count, also those from which another alternative has
recovered.  A rule stands for the attempts made inside it at its own start, except for a single one,
which is kept in its place.

## Main definitions

* `Rule`: the rules that explanations name.
* `Furthest`: the furthest place of failure, and `Furthest.record`, how a failure changes it.
* `Recogniser`: a recogniser with its bookkeeping; `named` attributes failures to a rule.
-/

namespace Interpolation.Grammar

/-- The rules of the expression language that explanations name. -/
inductive Rule where
  | endOfInput
  | expression
  | list
  | group
  | string
  | singleQuoted
  | doubleQuoted
  | number
  | boolean
  | null
  | path
  | property
  | index
  | integer
  | identifier
deriving DecidableEq

namespace Rule

/-- The rules in the order in which explanations name them. -/
def all : List Rule :=
  [endOfInput, expression, list, group, string, singleQuoted, doubleQuoted, number, boolean, null,
    path, property, index, integer, identifier]

/-- How explanations name a rule. -/
def name : Rule → String
  | endOfInput => "EOI"
  | expression => "expression"
  | list => "list"
  | group => "group"
  | string => "string"
  | singleQuoted => "single_quoted"
  | doubleQuoted => "double_quoted"
  | number => "number"
  | boolean => "boolean"
  | null => "null"
  | path => "path"
  | property => "property"
  | index => "index"
  | integer => "integer"
  | identifier => "identifier"

end Rule

/-! ## The furthest failure -/

/-- The furthest place at which a rule has failed, and the rules attempted there. -/
structure Furthest where
  /-- Where it is. -/
  place : Offset
  /-- The rules, in the order of their failures; a rule that is attempted again is listed again. -/
  attempts : Array Rule

namespace Furthest

/-- Nothing has failed so far. -/
def initial : Furthest := ⟨.zero, #[]⟩

/-- How many attempts are known at a place. -/
def countAt (f : Furthest) (place : Offset) : Nat :=
  if f.place = place then f.attempts.size else 0

/-- The state after a rule has failed at `place`, where its parts have led to the state `after`.  The
attempts that its parts made at `place` give way to the rule, unless there is just one; `earlier` is
the number of attempts that were known there before. -/
def record (after : Furthest) (rule : Rule) (place : Offset) (earlier : Nat) : Furthest :=
  -- A single attempt inside the rule stands for the rule.
  if after.countAt place = earlier + 1 then after
  else if after.place = place then
    { after with attempts := (after.attempts.shrink earlier).push rule }
  else if after.place.bytes < place.bytes then ⟨place, #[rule]⟩
  else after

/-- The rules that were attempted at the furthest place, each of them once. -/
def expected (f : Furthest) : List Rule := Rule.all.filter (· ∈ f.attempts)

end Furthest

/-- Alternatives in a sentence: commas between them, and a word in front of the last. -/
def enumerate : List String → String
  | [] => ""
  | [a] => a
  | [a, b] => a ++ " or " ++ b
  | alternatives =>
    ", ".intercalate alternatives.dropLast ++ ", or " ++ alternatives.getLastD ""

/-- What an explanation says. -/
def Furthest.message (f : Furthest) : String :=
  "expected " ++ enumerate (f.expected.map Rule.name)

/-! ## Recognisers -/

/-- A place in a text, and the text from there on. -/
structure Cursor where
  /-- The place. -/
  here : Offset
  /-- The text behind it. -/
  rest : List Char

/-- Moves a cursor behind a lexeme. -/
def Cursor.advance (cursor : Cursor) (lexeme rest : List Char) : Cursor :=
  ⟨cursor.here + extent lexeme, rest⟩

/-- Reads a phrase from a cursor, and keeps account of what has failed. -/
def Recogniser (α : Type) : Type := Cursor → Furthest → Option (α × Cursor) × Furthest

namespace Recogniser

variable {α β : Type}

/-- Reads nothing. -/
def success (a : α) : Recogniser α := fun cursor state => (some (a, cursor), state)

/-- Reads a phrase, and then another one that may depend on it. -/
def andThen (p : Recogniser α) (next : α → Recogniser β) : Recogniser β := fun cursor state =>
  match p cursor state with
  | (none, state) => (none, state)
  | (some (a, cursor), state) => next a cursor state

instance : Monad Recogniser where
  pure := success
  bind := andThen

/-- Fails without an account. -/
def fail : Recogniser α := fun _ state => (none, state)

/-- Reads the second phrase if the first one is not there. -/
def orElse (p q : Recogniser α) : Recogniser α := fun cursor state =>
  match p cursor state with
  | (none, state) => q cursor state
  | found => found

/-- Reads phrases in a row, up to a limit. -/
def repeated (p : Recogniser α) : Nat → Recogniser (List α)
  | 0 => success []
  | limit + 1 => fun cursor state =>
    match p cursor state with
    -- The phrase that is not there ends the row, and its failure is kept in the account.
    | (none, state) => (some ([], cursor), state)
    | (some (a, cursor), state) =>
      (do return a :: (← repeated p limit)) cursor state

/-- As many phrases in a row as there are, where each takes up at least one character.  The one that
is not there any more is attempted as well. -/
def many (p : Recogniser α) : Recogniser (List α) := fun cursor =>
  repeated p (cursor.rest.length + 1) cursor

/-- Tells where the cursor is. -/
def place : Recogniser Offset := fun cursor state => (some (cursor.here, cursor), state)

/-- A single character, whose absence is not worth an explanation. -/
def symbol (c : Char) : Recogniser Unit := fun cursor state =>
  match cursor.rest with
  | d :: rest => if c = d then (some ((), cursor.advance [c] rest), state) else (none, state)
  | [] => (none, state)

/-- Skips the characters that pass a test. -/
def skipWhile (test : Char → Bool) : Recogniser Unit := fun cursor state =>
  (some ((), cursor.advance (cursor.rest.takeWhile test) (cursor.rest.dropWhile test)), state)

/-- Reads a token. -/
def lexeme (lexer : List Char → Option (List Char × List Char)) : Recogniser (List Char) :=
  fun cursor state =>
    match lexer cursor.rest with
    | some (lexeme, rest) => (some (lexeme, cursor.advance lexeme rest), state)
    | none => (none, state)

/-- Reads the end of the text. -/
def atEnd : Recogniser Unit := fun cursor state =>
  if cursor.rest = [] then (some ((), cursor), state) else (none, state)

/-- Attributes the failure of a recogniser to a rule. -/
def named (rule : Rule) (p : Recogniser α) : Recogniser α := fun cursor before =>
  let earlier := before.countAt cursor.here
  match p cursor before with
  | (none, after) => (none, after.record rule cursor.here earlier)
  | found => found

end Recogniser

end Interpolation.Grammar
