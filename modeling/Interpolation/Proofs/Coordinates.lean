import Interpolation.Proofs.Snippet
import Mathlib.Data.Prod.Lex

/-!
# Lines, columns and characters

A place in a text is told in three ways: by a byte offset, by a number of characters, and by a line
with a column.  They are computed apart from each other, by counting characters, by counting line
feeds and by searching for the last of them.  All three tell the same place: lines and columns grow
with byte offsets, and the characters in front of a place are those of the lines in front of its
line, with their line feeds, and those in front of its column.

## Main definitions

- `placeBehind`: the line and the column behind a run of characters.
- `charsInFront`: the characters in front of a line and a column.

## Main results

- `placeBehind_concat`, `placeBehind_lt`: each character moves the place on.
- `charsInFront_placeBehind`: the place behind a run of characters tells how long the run is.
- `lineColumns_consistent`: the three ways of telling a place agree.
-/

namespace Interpolation

variable {text : String} {before behind : List Char}

/-! ## Layer A: the place behind a run of characters -/

/-- The line and the column behind a run of characters that starts a text. -/
def placeBehind (before : List Char) : Nat × Nat :=
  (before.count '\n' + 1, (lastLine before).length + 1)

theorem lineColumn_of_split (h : text.toList = before ++ behind) :
    lineColumn text (extent before).bytes = some (placeBehind before) := by
  rw [lineColumn, h, cutAt_append]
  rfl

theorem lastLine_concat (before : List Char) (c : Char) :
    lastLine (before ++ [c]) = if c = '\n' then [] else lastLine before ++ [c] := by
  by_cases hc : c = '\n' <;> simp [lastLine, hc]

/-- A line feed starts the next line, and any other character the next column. -/
theorem placeBehind_concat (before : List Char) (c : Char) :
    placeBehind (before ++ [c]) =
      if c = '\n' then ((placeBehind before).1 + 1, 1)
      else ((placeBehind before).1, (placeBehind before).2 + 1) := by
  by_cases hc : c = '\n' <;> simp [placeBehind, lastLine_concat, List.count_append, hc]

theorem placeBehind_lt_concat (before : List Char) (c : Char) :
    toLex (placeBehind before) < toLex (placeBehind (before ++ [c])) := by
  rw [placeBehind_concat, Prod.Lex.toLex_lt_toLex]
  split
  · exact .inl (Nat.lt_succ_self _)
  · exact .inr ⟨rfl, Nat.lt_succ_self _⟩

/-- Each run of characters moves the place on. -/
theorem placeBehind_lt {w : List Char} (hw : w ≠ []) (before : List Char) :
    toLex (placeBehind before) < toLex (placeBehind (before ++ w)) := by
  -- From the end: the last character moves the place on from where the others have brought it.
  induction w using List.reverseRecOn with
  | nil => exact absurd rfl hw
  | append_singleton w c ih =>
    have hlast := placeBehind_lt_concat (before ++ w) c
    rw [← List.append_assoc]
    by_cases hnil : w = []
    · subst hnil
      simpa using hlast
    · exact (ih hnil).trans hlast

section Boundaries

variable {before' behind' : List Char} (h : before ++ behind = before' ++ behind')

include h

/-- Of two boundaries of a text, the one with fewer bytes in front has the earlier place. -/
theorem placeBehind_lt_of_bytes_lt (hlt : (extent before).bytes < (extent before').bytes) :
    toLex (placeBehind before) < toLex (placeBehind before') := by
  -- The earlier beginning is a beginning of the later one; what is between them is not empty.
  obtain ⟨w, rfl⟩ := prefix_of_bytes_le h (Nat.le_of_lt hlt)
  refine placeBehind_lt ?_ before
  rintro rfl
  simp at hlt

theorem bytes_lt_iff_placeBehind_lt :
    (extent before).bytes < (extent before').bytes ↔
      toLex (placeBehind before) < toLex (placeBehind before') := by
  constructor
  · exact placeBehind_lt_of_bytes_lt h
  · intro hplace
    by_contra hle
    -- Otherwise the places come in the other order, or are the same.
    rcases Nat.lt_or_eq_of_le (Nat.le_of_not_lt hle) with hlt | heq
    · exact lt_asymm hplace (placeBehind_lt_of_bytes_lt h.symm hlt)
    · rw [(eq_of_bytes_eq h heq.symm).1] at hplace
      exact lt_irrefl _ hplace

/-- No two boundaries of a text have the same place. -/
theorem bytes_eq_iff_placeBehind_eq :
    (extent before).bytes = (extent before').bytes ↔ placeBehind before = placeBehind before' := by
  constructor
  · intro heq
    rw [(eq_of_bytes_eq h heq).1]
  · intro hplace
    by_contra hne
    rcases Nat.lt_or_gt_of_ne hne with hlt | hgt
    · have hearlier := placeBehind_lt_of_bytes_lt h hlt
      rw [hplace] at hearlier
      exact lt_irrefl _ hearlier
    · have hlater := placeBehind_lt_of_bytes_lt h.symm hgt
      rw [hplace] at hlater
      exact lt_irrefl _ hlater

end Boundaries

/-! ## Layer B: characters in front of a place -/

/-- The characters in front of a line and a column: those of the lines in front, each with its line
feed, and those in front of the column. -/
def charsInFront (text : List Char) (place : Nat × Nat) : Nat :=
  (((text.splitOn '\n').take (place.1 - 1)).map fun line => line.length + 1).sum + (place.2 - 1)

/-- Lines that are ended are the first lines of the text. -/
theorem splitOn_endedLines {lines : List (List Char)} (hlines : ∀ line ∈ lines, '\n' ∉ line)
    (rest : List Char) :
    (endedLines lines ++ rest).splitOn '\n' = lines ++ rest.splitOn '\n' := by
  induction lines with
  | nil => rfl
  | cons line lines ih =>
    obtain ⟨hline, hrest⟩ := List.forall_mem_cons.mp hlines
    rw [endedLines_cons, List.append_assoc, List.cons_append,
      List.splitOn_append_cons_self_of_not_mem hline, ih hrest, List.cons_append]

theorem length_endedLines (lines : List (List Char)) :
    (endedLines lines).length = (lines.map fun line => line.length + 1).sum := by
  simp [endedLines, List.length_flatMap]

/-- The place behind a run of characters tells how long the run is. -/
theorem charsInFront_placeBehind (before behind : List Char) :
    charsInFront (before ++ behind) (placeBehind before) = before.length := by
  -- The run is some ended lines and the beginning of one more.
  obtain ⟨preceding, last, rfl, hpreceding, hlast⟩ := exists_lines before
  have hplace : placeBehind (endedLines preceding ++ last) =
      (preceding.length + 1, last.length + 1) := by
    rw [placeBehind, count_lines hlast hpreceding, lastLine_eq hlast]
  rw [charsInFront, hplace, List.append_assoc, splitOn_endedLines hpreceding]
  simp [length_endedLines]

/-! ## Main result -/

theorem lineColumn_eq_none_iff {n : Nat} : lineColumn text n = none ↔ ¬ IsBoundary text n := by
  rw [lineColumn, Option.map_eq_none_iff, cutAt_eq_none_iff_not_isBoundary]

theorem lineColumns_isSome_iff {span : Span} :
    (span.lineColumns text).isSome ↔ IsBoundary text span.start ∧ IsBoundary text span.stop := by
  have hstart : lineColumn text span.start = none ↔ ¬ IsBoundary text span.start :=
    lineColumn_eq_none_iff
  have hstop : lineColumn text span.stop = none ↔ ¬ IsBoundary text span.stop :=
    lineColumn_eq_none_iff
  -- A span has no lines and columns if either end has none.
  rw [Span.lineColumns, ← not_iff_not, not_and_or, ← hstart, ← hstop]
  cases lineColumn text span.start <;> cases lineColumn text span.stop <;> simp

/-- **Byte offsets, characters, and lines with columns tell the same places.**  The search for the
last line feed in front of an offset never leaves the character boundaries.  A span has lines and
columns exactly if both of its ends are boundaries of the text; of any two boundaries the first one
has the earlier line, or the earlier column of the same line; and the line with the column tells how
many characters are in front. -/
theorem lineColumns_consistent (text : String) :
    (∀ n, (lineColumnByOffsets text n).Returns text (lineColumn text n)) ∧
    (∀ span : Span, (span.lineColumns text).isSome ↔
      IsBoundary text span.start ∧ IsBoundary text span.stop) ∧
    ∀ a b, IsBoundary text a → IsBoundary text b →
      ∃ place place', Span.lineColumns ⟨a, b⟩ text = some (place, place') ∧
        lineColumn text a = some place ∧ lineColumn text b = some place' ∧
        (a < b ↔ toLex place < toLex place') ∧ (a = b ↔ place = place') ∧
        charOffset text a = charsInFront text.toList place := by
  refine ⟨lineColumnByOffsets_returns text, fun span => lineColumns_isSome_iff, ?_⟩
  -- Two boundaries are two ways to take the same text apart.
  rintro a b ⟨before, behind, htext, rfl⟩ ⟨before', behind', htext', rfl⟩
  have hfirst := lineColumn_of_split htext
  have hsecond := lineColumn_of_split htext'
  have hsplit : before ++ behind = before' ++ behind' := htext.symm.trans htext'
  refine ⟨placeBehind before, placeBehind before', ?_, hfirst, hsecond,
    bytes_lt_iff_placeBehind_lt hsplit, bytes_eq_iff_placeBehind_eq hsplit, ?_⟩
  · simp [Span.lineColumns, hfirst, hsecond]
  · rw [charOffset_eq htext, htext, charsInFront_placeBehind]

/-- A carriage return is a character of its line, and two line feeds in a row have an empty line
between them. -/
theorem lineColumns_consistent_feeds :
    IsBoundary "é\r\n\n日x" 4 ∧ IsBoundary "é\r\n\n日x" 8 ∧
      Span.lineColumns ⟨4, 8⟩ "é\r\n\n日x" = some ((2, 1), (3, 2)) ∧
      (4 < 8 ↔ toLex (2, 1) < toLex (3, 2)) ∧
      charOffset "é\r\n\n日x" 4 = charsInFront "é\r\n\n日x".toList (2, 1) := by
  have hstart : IsBoundary "é\r\n\n日x" 4 := ⟨['é', '\r', '\n'], ['\n', '日', 'x'], rfl, rfl⟩
  have hstop : IsBoundary "é\r\n\n日x" 8 := ⟨['é', '\r', '\n', '\n', '日'], ['x'], rfl, rfl⟩
  have hplaces : Span.lineColumns ⟨4, 8⟩ "é\r\n\n日x" = some ((2, 1), (3, 2)) := by
    cbv
  obtain ⟨place, place', hspan, -, -, horder, -, hchars⟩ :=
    (lineColumns_consistent "é\r\n\n日x").2.2 4 8 hstart hstop
  rw [hplaces] at hspan
  cases hspan
  exact ⟨hstart, hstop, hplaces, horder, hchars⟩

end Interpolation
