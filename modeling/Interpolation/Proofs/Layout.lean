import Interpolation.Proofs.Division

/-!
# Layouts

A layout is a text that has segments, taken apart: a row of blocks with static text behind it, each
of which looks as it should.  Whoever builds a layout has a text with known segments, and a text
with segments comes with a layout, so operations on templates can be carried out on layouts and need
no look at the text.

## Main definitions

- `Layout`: blocks and static text that make up a text with segments.
- `Layout.written`, `Layout.segments`: the text and its segments.
- `Segment.isVacant`: the segment of an empty text.

## Main results

- `Layout.segment_eq`: a text has the segments of its layout.
- `exists_layout`: a text with segments has a layout.
-/

namespace Interpolation

/-- A row of blocks with static text behind it, as it stands in a text that has segments. -/
structure Layout (d : Delimiters) where
  /-- The expressions, each with the static text in front of it. -/
  blocks : List Block
  /-- The static text behind the last expression. -/
  tail : List Char
  /-- Each block looks as it should. -/
  wellFormed : ∀ b ∈ blocks, b.WellFormed d
  /-- No opening token occurs in the tail. -/
  static : Avoids d.opening.toList tail []

/-- Static text without characters.  It is a segment of the empty text only. -/
def Segment.isVacant : Segment → Bool
  | literal text _ => text = ""
  | expression .. => false

variable {d : Delimiters} {text : String} {segs : List Segment}

namespace Layout

/-- The layout of an empty text. -/
def empty (d : Delimiters) : Layout d := ⟨[], [], by simp, .nil _ _⟩

/-- The text of a layout. -/
def written (layout : Layout d) : List Char := Interpolation.written d layout.blocks ++ layout.tail

/-- The segments of a layout whose text starts at `here`. -/
def segments (layout : Layout d) (here : Offset) : List Segment :=
  segmentsOf d here layout.blocks ++
    staticSegments (here + extent (Interpolation.written d layout.blocks)) layout.tail

/-- A text that is not empty has the segments of its layout. -/
theorem segment_eq (layout : Layout d) (hopening : d.opening ≠ "") (hclosing : d.closing ≠ "")
    (htext : text.toList = layout.written) (hne : text ≠ "") :
    segment text d = .ok (layout.segments .zero) := by
  rw [segment_template hopening hclosing hne htext layout.wellFormed layout.static, segments,
    Offset.zero_add]

theorem getLast?_segments (layout : Layout d) (htail : layout.tail ≠ []) (here : Offset) :
    ∃ span, (layout.segments here).getLast? =
      some (.literal (String.ofList layout.tail) span) := by
  rw [segments, staticSegments, if_neg htail, List.getLast?_concat]
  exact ⟨_, rfl⟩

theorem not_isVacant_staticSegments (here : Offset) (static : List Char) :
    ∀ s ∈ staticSegments here static, s.isVacant = false := by
  intro s hs
  unfold staticSegments at hs
  split at hs
  · cases hs
  · next hne =>
    rw [List.mem_singleton] at hs
    subst hs
    exact decide_eq_false fun hempty => hne (by simpa using congrArg String.toList hempty)

theorem not_isVacant_segmentsOf (blocks : List Block) (here : Offset) :
    ∀ s ∈ segmentsOf d here blocks, s.isVacant = false := by
  induction blocks generalizing here with
  | nil =>
    intro s hs
    cases hs
  | cons b blocks ih =>
    intro s hs
    rcases mem_segmentsOf_cons_iff.mp hs with hs | rfl | hs
    · exact not_isVacant_staticSegments _ _ s hs
    · rfl
    · exact ih _ s hs

/-- No segment of a layout is vacant. -/
theorem filter_segments (layout : Layout d) (here : Offset) :
    (layout.segments here).filter (!·.isVacant) = layout.segments here := by
  rw [List.filter_eq_self]
  intro s hs
  rcases List.mem_append.mp hs with hs | hs
  · rw [not_isVacant_segmentsOf _ _ s hs]
    rfl
  · rw [not_isVacant_staticSegments _ _ s hs]
    rfl

end Layout

/-- A text that has segments is empty, or has a layout with these segments. -/
theorem exists_layout (h : segment text d = .ok segs) :
    text = "" ∧ segs = [.literal "" ⟨0, 0⟩] ∨
      text ≠ "" ∧ ∃ layout : Layout d, text.toList = layout.written ∧
        segs = layout.segments .zero := by
  obtain ⟨hopening, hclosing⟩ := tokens_of_segment h
  -- The text is empty, or has a layout, or a fault and then no segments.
  rcases text_cases hopening text with rfl |
    ⟨hne, blocks, tail, hsplit, hblocks, htail | ⟨e, hbroken⟩⟩
  · rw [segment_empty hopening hclosing] at h
    exact .inl ⟨rfl, (Except.ok.inj h).symm⟩
  · let layout : Layout d := ⟨blocks, tail, hblocks, htail⟩
    rw [layout.segment_eq hopening hclosing hsplit hne] at h
    exact .inr ⟨hne, layout, hsplit, (Except.ok.inj h).symm⟩
  · rw [segment_faulty hopening hclosing hne hsplit hblocks hbroken] at h
    cases h

end Interpolation
