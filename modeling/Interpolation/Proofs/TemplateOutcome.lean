import Interpolation.Proofs.ByteDivision
import Interpolation.Proofs.ErrorPosition
import Mathlib

/-!
# Every outcome of reading a template

The two readers of templates have the same outcomes: a template of the parts of the segments, or the
first failure in the order of the text.  They differ in how they move the error of an expression
into the text.  The reader over characters has exact sums; the reader by byte offsets has those of a
machine, and may stop.  For an error that lies in the expression there is no difference.

## Main definitions

- `HasOutcome`: which templates are read, and which failures are reported.

## Main results

- `parseTemplate_iff`: the outcomes of both readers.
- `parseByOffsets_expression`: with the parser of expressions the readers are the same.
-/

namespace Interpolation

variable {ε : Type} {parser : SubParser ε} {text : String} {d : Delimiters}

/-- An outcome of reading a template, with a way of adding offsets. -/
structure HasOutcome (add : Addition) (parser : SubParser ε) (text : String) (d : Delimiters)
    (outcome : Option (Except Error (Template ε))) : Prop where
  /-- A template is read exactly as it comes from the segments of the text. -/
  reads : ∀ t, outcome = some (.ok t) ↔ ReadAs parser text d t
  /-- A failure is reported exactly if a token is empty, or if it is the first one in the text. -/
  fails : ∀ e, outcome = some (.error e) ↔
    d.check = .error e ∨ d.check = .ok () ∧ ReadingFault add parser text d e

theorem parseTemplate_hasOutcome (parser : SubParser ε) (text : String) (d : Delimiters) :
    HasOutcome .exact parser text d (some (parseTemplate parser text d)) where
  reads t := by rw [Option.some_inj, parseTemplate_eq_ok_iff]
  fails e := by rw [Option.some_inj, parseTemplate_eq_error_iff]

/-- The reader by byte offsets reads what the reader over characters reads. -/
theorem parseByOffsets_eq_ok_iff (overflow : Overflow) {t : Template ε} :
    (parseByOffsets overflow (fun raw d => some (parser raw d)) text d).result = some (.ok t) ↔
      parseTemplate parser text d = .ok t := by
  rcases refusal_cases parser text d with ⟨hcheck, origin, e, hrefusal⟩ | hnone
  · -- Neither of them reads a text with an expression that is refused.
    obtain ⟨hopening, hclosing⟩ := Delimiters.check_eq_ok_iff.mp hcheck
    rw [(hrefusal.parseByOffsets_yields overflow hcheck).result,
      hrefusal.parseTemplate_eq hopening hclosing]
    cases e.rebaseBy overflow.addition origin <;> simp
  · rw [(parseByOffsets_returns overflow hnone).result, Option.some_inj]

/-- The reader by byte offsets reports the first failure in the order of the text. -/
theorem parseByOffsets_eq_error_iff (overflow : Overflow) {e : Error} :
    (parseByOffsets overflow (fun raw d => some (parser raw d)) text d).result =
        some (.error e) ↔
      d.check = .error e ∨ d.check = .ok () ∧ ReadingFault overflow.addition parser text d e := by
  constructor
  · intro h
    rcases refusal_cases parser text d with ⟨hcheck, origin, e', hrefusal⟩ | hnone
    · rw [(hrefusal.parseByOffsets_yields overflow hcheck).result, Option.map_eq_some_iff] at h
      -- A refused expression is reported if its error can be moved.
      obtain ⟨moved, hrebase, heq⟩ := h
      cases heq
      exact .inr ⟨hcheck, .expression hrefusal (Error.moved_iff.mpr ⟨moved, hrebase, rfl⟩)⟩
    · rw [(parseByOffsets_returns overflow hnone).result, Option.some_inj,
        parseTemplate_eq_error_iff] at h
      rcases h with htoken | ⟨hcheck, hfault⟩
      · exact .inl htoken
      · -- No expression is refused, so the fault is one of the division.
        cases hfault with
        | expression hrefusal _ => exact absurd hrefusal (hnone hcheck _ _)
        | division hsplit hblocks haccepted hbroken hsegment =>
          exact .inr ⟨hcheck, .division hsplit hblocks haccepted hbroken hsegment⟩
  · rintro (htoken | ⟨hcheck, hfault⟩)
    · rw [parseByOffsets, htoken]
      rfl
    · exact (hfault.parseByOffsets_returns overflow hcheck).result

theorem parseByOffsets_hasOutcome (overflow : Overflow) (parser : SubParser ε) (text : String)
    (d : Delimiters) :
    HasOutcome overflow.addition parser text d
      (parseByOffsets overflow (fun raw d => some (parser raw d)) text d).result where
  reads t := by rw [parseByOffsets_eq_ok_iff, parseTemplate_eq_ok_iff]
  fails e := parseByOffsets_eq_error_iff overflow

/-- With the parser of expressions a text that words can count is read without a stop. -/
theorem parseByOffsets_expression (overflow : Overflow) (htext : text.utf8ByteSize < wordSize)
    (d : Delimiters) :
    (parseByOffsets overflow (fun raw d => some (Expression.parse raw d)) text d).Returns text
      (parseTemplate Expression.parse text d) :=
  parseByOffsets_returns_of_tellsWithin overflow Expression.tellsWithin htext d

/-- **Every outcome of reading a template, with any parser of expressions.**  The template is made
of the parts of the segments of the text, and the first failure in the order of the text is
reported; the error of an expression is moved to where the expression stands.  With the sums of a
machine the outcomes are the same up to these sums, and they are the same ones if the parser tells
of places in the expression only. -/
theorem parseTemplate_iff (parser : SubParser ε) (text : String) (d : Delimiters) :
    HasOutcome .exact parser text d (some (parseTemplate parser text d)) ∧
    ∀ overflow : Overflow,
      HasOutcome overflow.addition parser text d
        (parseByOffsets overflow (fun raw d => some (parser raw d)) text d).result ∧
      (parser.TellsWithin → text.utf8ByteSize < wordSize →
        (parseByOffsets overflow (fun raw d => some (parser raw d)) text d).result =
          some (parseTemplate parser text d)) := by
  refine ⟨parseTemplate_hasOutcome parser text d, fun overflow => ?_⟩
  -- Errors that lie in the expression have no sum that is too large.
  refine ⟨parseByOffsets_hasOutcome overflow parser text d, fun htells htext => ?_⟩
  exact (parseByOffsets_returns_of_tellsWithin overflow htells htext d).result

/-- The second expression is refused behind a character of two bytes, which its span counts twice
and its position once. -/
theorem parseTemplate_iff_refused :
    SubParser.TellsWithin Expression.parse ∧ "é$\x7ba\x7d$\x7b.\x7d".utf8ByteSize < wordSize ∧
    ∃ e, (parseByOffsets .stops (fun raw d => some (Expression.parse raw d)) "é$\x7ba\x7d$\x7b.\x7d"
        .dollar).result = some (.error e) ∧
      e.span = ⟨8, 8⟩ ∧ e.kind.position? = some 7 ∧ e.source = some "é$\x7ba\x7d$\x7b.\x7d" := by
  have hsize : "é$\x7ba\x7d$\x7b.\x7d".utf8ByteSize < wordSize := by decide
  have hparse : ∃ e, parseTemplate Expression.parse "é$\x7ba\x7d$\x7b.\x7d" .dollar = .error e ∧
      e.span = ⟨8, 8⟩ ∧ e.kind.position? = some 7 ∧ e.source = some "é$\x7ba\x7d$\x7b.\x7d" := by
    refine ⟨_, by cbv, rfl, rfl, rfl⟩
  obtain ⟨e, he, hplaces⟩ := hparse
  refine ⟨Expression.tellsWithin, hsize, e, ?_, hplaces⟩
  rw [((parseTemplate_iff _ _ _).2 .stops).2 Expression.tellsWithin hsize, he]

end Interpolation
