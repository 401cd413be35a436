import Interpolation.Proofs.ClosingToken
import Mathlib

/-!
# The search for a closing token is local

What the search finds is decided by the text from the place where it starts to the end of the token
that it takes.  Text in front of that place moves what is found, and changes nothing else.  Text
behind the token may be anything, although the search looks for the token, and for the other quote
of a literal, in all of it: up to the token that is taken all literals are closed, and a token that
starts in front of it ends before it does.

## Main definitions

- `Opener.rebase`, `Nesting.rebase`: what is open, with places counted from further in front.
- `SearchFailure.rebase`, `rebaseOutcome`: what a search finds, seen from further in front.

## Main results

- `Nesting.step_rebase`, `scanBody_rebase`: a step and a scan from further behind.
- `bodyOf_replace_rest`: a body does not depend on what follows its closing token.
- `findClosing_local`: the same of the search by byte offsets.
-/

namespace Interpolation

variable {closing u rest : List Char} {here origin : Offset} {nesting : Nesting} {c : Char}

/-! ## Layer A: places further behind -/

/-- A place that is counted from `origin`, counted from where `origin` is. -/
def Opener.rebase (opener : Opener) (origin : Offset) : Opener :=
  { opener with offset := origin + opener.offset }

/-- What is open, with all places counted from further in front. -/
def Nesting.rebase (nesting : Nesting) (origin : Offset) : Nesting :=
  ⟨nesting.quote?.map (·.rebase origin), nesting.brackets.map (·.rebase origin)⟩

namespace Opener

variable {opener closer : Opener}

theorem span_rebase : (opener.rebase origin).span = opener.span.shift origin.bytes := by
  simp only [span, rebase, Span.ofLength, Span.shift, Offset.bytes_add, Span.mk.injEq]
  omega

theorem closedBy_rebase : (opener.rebase origin).closedBy c = opener.closedBy c := rfl

theorem unclosed_rebase : (opener.rebase origin).unclosed = opener.unclosed.rebase origin := by
  rw [unclosed, span_rebase]
  simp [unclosed, rebase, Error.rebase, Error.spanned, ErrorKind.mapPositions, Nat.add_comm]

theorem unterminated_rebase :
    (opener.rebase origin).unterminated = opener.unterminated.rebase origin := by
  rw [unterminated, span_rebase]
  simp [unterminated, rebase, Error.rebase, Error.spanned, Error.withHelp, ErrorKind.mapPositions,
    Nat.add_comm]

theorem unopened_rebase : (closer.rebase origin).unopened = closer.unopened.rebase origin := by
  rw [unopened, span_rebase]
  simp [unopened, rebase, Error.rebase, Error.spanned, ErrorKind.mapPositions, Nat.add_comm]

theorem mismatched_rebase :
    (closer.rebase origin).mismatched (opener.rebase origin) =
      (closer.mismatched opener).rebase origin := by
  rw [mismatched, span_rebase]
  simp [mismatched, rebase, Error.rebase, Error.spanned, ErrorKind.mapPositions, Nat.add_comm]

end Opener

namespace Nesting

theorem rebase_eq_closed_iff : nesting.rebase origin = closed ↔ nesting = closed := by
  obtain ⟨quote?, brackets⟩ := nesting
  simp [rebase, closed]

theorem unfinished?_rebase :
    (nesting.rebase origin).unfinished? = nesting.unfinished?.map (·.rebase origin) := by
  obtain ⟨quote?, brackets⟩ := nesting
  cases quote? with
  -- The literal comes first, then the innermost bracket.
  | some quote => exact congrArg some Opener.unterminated_rebase
  | none =>
    cases brackets with
    | nil => rfl
    | cons opener outer => exact congrArg some Opener.unclosed_rebase

theorem misfit_rebase (closer : Opener) (atToken : Bool) :
    (nesting.rebase origin).misfit (closer.rebase origin) atToken =
      (nesting.misfit closer atToken).rebase origin := by
  obtain ⟨quote?, brackets⟩ := nesting
  cases brackets with
  | nil => exact Opener.unopened_rebase
  | cons opener outer =>
    cases atToken with
    | true => exact Opener.unclosed_rebase
    | false => exact Opener.mismatched_rebase

/-- A step from further behind: it is the same step, and what it opens stands further behind. -/
theorem step_rebase :
    (nesting.rebase origin).step (origin + here) c =
      (nesting.step here c).map (·.rebase origin) := by
  obtain ⟨quote?, brackets⟩ := nesting
  cases quote? with
  -- Inside a literal a place is kept; outside, the role of the character decides.
  | some quote =>
    by_cases hc : c = quote.symbol <;> simp [step, rebase, Opener.rebase, hc]
  | none =>
    cases hrole : CharRole.of c with
    | plain => simp [step, rebase, hrole]
    | quote => simp [step, rebase, hrole, Opener.rebase]
    | opener => simp [step, rebase, hrole, Opener.rebase]
    | closer =>
      cases brackets with
      | nil => simp [step, rebase, hrole]
      | cons opener outer =>
        by_cases hclosed : opener.closedBy c = true <;>
          simp [step, rebase, hrole, Opener.closedBy_rebase, hclosed]

end Nesting

/-! ## Layer B: scans further behind -/

/-- **A scan from further behind** comes to the same end, and tells its faults further behind. -/
theorem scanBody_rebase (text : List Char) :
    scanBody closing (nesting.rebase origin) (origin + here) text =
      (scanBody closing nesting here text).mapError (·.rebase origin) := by
  -- The induction is on the text: one step, and the scan of what is left.
  induction text generalizing nesting here with
  | nil =>
    unfold scanBody
    simp only [Nesting.rebase_eq_closed_iff, Nesting.unfinished?_rebase]
    split
    · rfl
    · cases nesting.unfinished? <;> rfl
  | cons c cs ih =>
    unfold scanBody
    simp only [Nesting.rebase_eq_closed_iff, Nesting.step_rebase]
    split
    · rfl
    · cases nesting.step here c with
      | none => exact congrArg Except.error (Nesting.misfit_rebase ⟨c, here⟩ _)
      | some next =>
        simp only [Option.map_some]
        rw [Offset.add_assoc, ih]
        cases scanBody closing next (here + .ofChar c) cs <;> rfl

theorem bodyOf_rebase (text : List Char) :
    bodyOf closing (origin + here) text =
      (bodyOf closing here text).mapError (·.rebase origin) := by
  rw [bodyOf, bodyOf]
  split
  · -- Nothing is open yet, from wherever it is seen.
    change scanBody closing (Nesting.closed.rebase origin) (origin + here) text = _
    exact scanBody_rebase text
  · rfl

/-! ## Layer C: what follows the closing token -/

theorem noneLive_replace_rest (h : NoneLive closing u (closing ++ rest)) (tail : List Char) :
    NoneLive closing u (closing ++ tail) := by
  intro v w hu hw hbalanced hstarts
  have hinside : closing <+: w ++ closing := prefix_append_token_iff.mp hstarts
  exact h v w hu hw hbalanced (prefix_append_token_iff.mpr hinside)

/-- **A body does not depend on what follows its closing token.** -/
theorem bodyOf_replace_rest {text : List Char} {body : Body}
    (h : bodyOf closing here text = .ok (some body)) (tail : List Char) :
    bodyOf closing here (body.text ++ (closing ++ tail)) = .ok (some ⟨body.text, tail⟩) := by
  obtain ⟨-, hbalanced, hnone⟩ := bodyOf_eq_some_iff.mp h
  exact bodyOf_eq_some_iff.mpr ⟨rfl, hbalanced, noneLive_replace_rest hnone tail⟩

/-! ## Main result -/

/-- A failure of the search, told from further in front. -/
def SearchFailure.rebase (failure : SearchFailure) (origin : Offset) : SearchFailure :=
  match failure with
  | .offBoundary => .offBoundary
  | .malformed e => .malformed (e.rebase origin)

/-- What a search in the text from `origin` on finds, as found in the whole text. -/
def rebaseOutcome (origin : Offset) (outcome : Except SearchFailure (Option Nat)) :
    Except SearchFailure (Option Nat) :=
  match outcome with
  | .error failure => .error (failure.rebase origin)
  | .ok pos? => .ok (pos?.map (origin.bytes + ·))

/-- The end of the first of two texts, in both units. -/
theorem extent_toList (front : String) :
    extent front.toList = ⟨front.utf8ByteSize, front.length⟩ :=
  Offset.ext (bytes_extent_toList front) ((chars_extent _).trans String.length_toList)

/-- The search from the end of `front` on, by what stands behind it. -/
theorem findClosing_append (front rest closing : String) :
    findClosing (front ++ rest) front.utf8ByteSize closing =
      match bodyOf closing.toList (extent front.toList) rest.toList with
      | .error e => .error (.malformed e)
      | .ok body? => .ok (body?.map fun body => front.utf8ByteSize + (extent body.text).bytes) := by
  rw [← bytes_extent_toList front]
  exact findClosing_eq String.toList_append

/-- **The search is local.**  From a character boundary on it finds what it finds in the text behind
that boundary alone, with byte offsets moved by the bytes in front of the boundary and character
positions by the characters there.  A token that is found stays found whatever replaces the text
behind it. -/
theorem findClosing_local (front rest closing : String) :
    findClosing (front ++ rest) front.utf8ByteSize closing =
        rebaseOutcome ⟨front.utf8ByteSize, front.length⟩ (findClosing rest 0 closing) ∧
      ∀ pos, findClosing (front ++ rest) front.utf8ByteSize closing = .ok (some pos) →
        ∃ kept behind, front ++ rest = kept ++ behind ∧
          kept.utf8ByteSize = pos + closing.utf8ByteSize ∧
          ∀ tail, findClosing (kept ++ tail) front.utf8ByteSize closing = .ok (some pos) := by
  constructor
  · -- The search from the end of `front` on is a scan from there, and so is the other one from
    -- zero.
    have hbehind := findClosing_append "" rest closing
    have hmoved : bodyOf closing.toList (extent front.toList) rest.toList =
        (bodyOf closing.toList .zero rest.toList).mapError (·.rebase (extent front.toList)) := by
      rw [← bodyOf_rebase, Offset.add_zero]
    have hzero : extent "".toList = .zero := rfl
    rw [String.empty_append, String.utf8ByteSize_empty, hzero] at hbehind
    rw [findClosing_append, hmoved, hbehind, ← extent_toList, ← bytes_extent_toList]
    cases bodyOf closing.toList .zero rest.toList with
    | error e => rfl
    | ok body? =>
      cases body? with
      | none => rfl
      | some body => simp [Except.mapError, rebaseOutcome]
  · -- What is kept is the text up to the end of the token.
    intro pos hfound
    rw [findClosing_append] at hfound
    cases hbody : bodyOf closing.toList (extent front.toList) rest.toList with
    | error e => simp [hbody] at hfound
    | ok body? =>
      simp only [hbody, Except.ok.injEq, Option.map_eq_some_iff] at hfound
      obtain ⟨body, rfl, rfl⟩ := hfound
      obtain ⟨hrest, -, -⟩ := bodyOf_eq_some_iff.mp hbody
      refine ⟨front ++ (.ofList body.text ++ closing), .ofList body.rest, ?_, ?_, ?_⟩
      · rw [String.append_assoc, String.append_assoc, ← String.toList_inj]
        simp [hrest]
      · rw [String.utf8ByteSize_append, String.utf8ByteSize_append, bytes_extent, Nat.add_assoc]
      · intro tail
        rw [String.append_assoc, findClosing_append]
        have hreplaced := bodyOf_replace_rest hbody tail.toList
        simp [hreplaced]

/-- Behind an accented letter, with a token inside a literal and a bracket that is closed. -/
theorem findClosing_local_accented :
    findClosing ("é$\x7b" ++ "')\x7d' + [a] \x7d b") 4 "\x7d" = .ok (some 15) ∧
      ∃ kept behind, "é$\x7b" ++ "')\x7d' + [a] \x7d b" = kept ++ behind ∧
        kept.utf8ByteSize = 16 ∧ ∀ tail, findClosing (kept ++ tail) 4 "\x7d" = .ok (some 15) := by
  have hfound : findClosing ("é$\x7b" ++ "')\x7d' + [a] \x7d b") 4 "\x7d" = .ok (some 15) := by
    cbv
  exact ⟨hfound, (findClosing_local "é$\x7b" "')\x7d' + [a] \x7d b" "\x7d").2 15 hfound⟩

-- The opening bracket and the wrong closing one, told in the text with what is in front.
example : findClosing ("日$\x7b" ++ "(a] \x7d") 5 "\x7d" =
    rebaseOutcome ⟨5, 3⟩
      (.error (.malformed (.spanned (.mismatchedCloser 2 ']' '(' 0) (.ofLength 2 1)))) := by
  cbv

end Interpolation
