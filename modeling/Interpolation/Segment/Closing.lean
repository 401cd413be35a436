import Interpolation.Bracket
import Interpolation.Error
import Interpolation.Text.Occurrence

/-!
# The token that closes an expression

An embedded expression stops at the first occurrence of its closing token that is not inside
brackets or a string literal of the expression.  Brackets have to pair up on the way.  A literal
may hold anything but its own quote, and is never looked into.

## Main definitions

* `Nesting`, `Nesting.step`: what is open at a place, and how one character changes it.
* `scanBody`: reads an expression up to its closing token, one character at a time.
* `bodyOf`: the same, where a closing token that occurs nowhere hides every other fault.
* `findClosing`: the place of the closing token behind a given byte offset of a text.

## Main statements

* `scanBody_eq_some`: body, closing token and rest are the text that was read.
-/

namespace Interpolation

/-- A character that waits for its partner, and where it stands. -/
structure Opener where
  /-- The character itself. -/
  symbol : Char
  /-- Where it stands. -/
  offset : Offset
deriving DecidableEq

namespace Opener

/-- The single byte of a bracket or a quote. -/
def span (opener : Opener) : Span := .ofLength opener.offset.bytes 1

/-- Whether a closing bracket is the partner of an opening one. -/
def closedBy (opener : Opener) (closer : Char) : Bool := closerOf opener.symbol == closer

/-- The failure of an opening bracket that is never closed. -/
def unclosed (opener : Opener) : Error :=
  .spanned (.unbalancedOpener opener.offset.chars opener.symbol (closerOf opener.symbol))
    opener.span

/-- The failure of a quote that is never closed. -/
def unterminated (opener : Opener) : Error :=
  (Error.spanned (.unterminatedLiteral opener.offset.chars opener.symbol) opener.span).withHelp
    "string literals must be closed with the same quote character"

/-- The failure of a closing bracket with nothing to close. -/
def unopened (closer : Opener) : Error :=
  .spanned (.unbalancedCloser closer.offset.chars closer.symbol (openerOf closer.symbol))
    closer.span

/-- The failure of a closing bracket that meets the wrong opening one. -/
def mismatched (closer opener : Opener) : Error :=
  .spanned
    (.mismatchedCloser closer.offset.chars closer.symbol opener.symbol opener.offset.chars)
    closer.span

end Opener

/-- The body of an expression and the text behind its closing token. -/
structure Body where
  /-- The text between the two tokens. -/
  text : List Char
  /-- What follows the closing token. -/
  rest : List Char

/-- A body with one more character in front. -/
def Body.cons (c : Char) (body : Body) : Body := { body with text := c :: body.text }

/-- What is open at a place of a text. -/
structure Nesting where
  /-- The quote of the literal that the place is inside of. -/
  quote? : Option Opener
  /-- The open brackets, the innermost first. -/
  brackets : List Opener
deriving DecidableEq

namespace Nesting

/-- Nothing is open. -/
def closed : Nesting := ⟨none, []⟩

/-- What is open behind the character `c` that stands at `here`.  Nothing is, if that is a closing
bracket and the innermost open bracket is not its partner. -/
def step (nesting : Nesting) (here : Offset) (c : Char) : Option Nesting :=
  match nesting.quote? with
  -- Inside a literal only its own quote counts.
  | some quote => some ⟨if c = quote.symbol then none else some quote, nesting.brackets⟩
  | none =>
    match CharRole.of c with
    | .plain => some nesting
    | .quote => some ⟨some ⟨c, here⟩, nesting.brackets⟩
    | .opener => some ⟨none, ⟨c, here⟩ :: nesting.brackets⟩
    | .closer =>
      match nesting.brackets with
      | [] => none
      | opener :: outer => if opener.closedBy c then some ⟨none, outer⟩ else none

/-- The failure at the end of a text: of the literal that is open there, else of the innermost
bracket. -/
def unfinished? (nesting : Nesting) : Option Error :=
  match nesting.quote?, nesting.brackets with
  | some quote, _ => some quote.unterminated
  | none, opener :: _ => some opener.unclosed
  | none, [] => none

/-- The failure of a closing bracket that is not the partner of the innermost open bracket.  It is
the opener's fault if the closing token of the expression stands there: then the expression is over
and the opener was left open. -/
def misfit (nesting : Nesting) (closer : Opener) (atToken : Bool) : Error :=
  match nesting.brackets with
  | [] => closer.unopened
  | opener :: _ => if atToken then opener.unclosed else closer.mismatched opener

@[simp] theorem misfit_nil (quote? : Option Opener) (closer : Opener) (atToken : Bool) :
    misfit ⟨quote?, []⟩ closer atToken = closer.unopened := rfl

@[simp] theorem misfit_cons_true (quote? : Option Opener) (opener closer : Opener)
    (outer : List Opener) : misfit ⟨quote?, opener :: outer⟩ closer true = opener.unclosed := rfl

@[simp] theorem misfit_cons_false (quote? : Option Opener) (opener closer : Opener)
    (outer : List Opener) :
    misfit ⟨quote?, opener :: outer⟩ closer false = closer.mismatched opener := rfl

end Nesting

/-- Reads an expression up to its closing token.  `nesting` is what is open at `here`, the place of
the text that is still to be read.  The closing token counts only where nothing is open, and there
is no body where the text ends first. -/
def scanBody (closing : List Char) (nesting : Nesting) (here : Offset) (text : List Char) :
    Except Error (Option Body) :=
  if nesting = .closed ∧ closing.isPrefixOf text then
    .ok (some ⟨[], text.drop closing.length⟩)
  else
    match text with
    | [] =>
      match nesting.unfinished? with
      | some e => .error e
      | none => .ok none
    | c :: cs =>
      match nesting.step here c with
      | some next => (scanBody closing next (here + .ofChar c) cs).map (Option.map (.cons c))
      | none => .error (nesting.misfit ⟨c, here⟩ (closing.isPrefixOf (c :: cs)))

/-- The body of the expression that starts a text, if its closing token follows.  A text in which
the token occurs nowhere has no body, whatever its brackets look like. -/
def bodyOf (closing : List Char) (here : Offset) (text : List Char) :
    Except Error (Option Body) :=
  if occursIn closing text then scanBody closing .closed here text else .ok none

/-- Why a closing token cannot be looked for. -/
inductive SearchFailure where
  /-- The search does not start at a character boundary of the text. -/
  | offBoundary
  /-- The expression has a fault. -/
  | malformed (e : Error)

/-- The byte offset of the token that closes the expression starting at byte offset `start`. -/
def findClosing (text : String) (start : Nat) (closing : String) :
    Except SearchFailure (Option Nat) :=
  match cutAt start text.toList with
  | none => .error .offBoundary
  | some (before, behind) =>
    match bodyOf closing.toList (extent before) behind with
    | .error e => .error (.malformed e)
    | .ok body? => .ok (body?.map fun body => start + (extent body.text).bytes)

/-- Whether the closing token stands at byte offset `pos`.  It stands nowhere off the character
boundaries. -/
def closingStandsAt (text : String) (pos : Nat) (closing : String) : Bool :=
  match cutAt pos text.toList with
  | none => false
  | some (_, behind) => closing.toList.isPrefixOf behind

/-! ## What was read is the text -/

/-- Body, closing token and rest make up the text that was read. -/
theorem scanBody_eq_some {closing : List Char} {nesting : Nesting} {here : Offset}
    {text : List Char} {body : Body} (h : scanBody closing nesting here text = .ok (some body)) :
    text = body.text ++ closing ++ body.rest := by
  induction text generalizing nesting here body with
  -- At the end of the text only an empty token is still to be found.
  | nil =>
    unfold scanBody at h
    split at h
    · next hc =>
      cases h
      simpa using hc.2
    · cases hn : nesting.unfinished? <;> simp [hn] at h
  | cons c cs ih =>
    unfold scanBody at h
    split at h
    · next hc =>
      cases h
      obtain ⟨rest, hrest⟩ := List.isPrefixOf_iff_prefix.mp hc.2
      simp [← hrest]
    · -- The character goes into the body that the rest of the text has.
      cases hstep : nesting.step here c with
      | none => simp [hstep] at h
      | some next =>
        simp only [hstep] at h
        cases hr : scanBody closing next (here + .ofChar c) cs with
        | error e => simp [hr, Except.map] at h
        | ok inner? =>
          cases inner? with
          | none => simp [hr, Except.map] at h
          | some inner =>
            simp only [hr, Except.map, Option.map_some, Except.ok.injEq, Option.some.injEq] at h
            subst h
            simp [Body.cons, ih hr]

/-- The rest behind a body is no longer than the text. -/
theorem length_rest_le_of_bodyOf {closing : List Char} {here : Offset} {text : List Char}
    {body : Body} (h : bodyOf closing here text = .ok (some body)) :
    body.rest.length ≤ text.length := by
  unfold bodyOf at h
  split at h
  · have := congrArg List.length (scanBody_eq_some h)
    simp only [List.length_append] at this
    omega
  · cases h

end Interpolation
