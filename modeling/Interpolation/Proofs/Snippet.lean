import Interpolation.Diagnostic
import Interpolation.Proofs.Labels
import Interpolation.Proofs.Walk

/-!
# The snippets of diagnostics

A snippet shows the line that a span starts in, and a marker below it.  Where the line starts and
ends, and where the marker does, can be computed in byte offsets, by searches for line feeds on both
sides of the start of the span.  No offset computed in this way is ever off the boundaries of the
text, and the bounds between which the end of the span is clamped never cross, whatever the span is.

## Main definitions

- `snippetByOffsets`: the snippet of a span, computed in byte offsets.
- `SpanLine`: the line that a span starts in, taken apart.

## Main results

- `exists_lines`, `lastLineStart_eq`: a text in front of an offset, line by line.
- `exists_clamped`, `exists_spanLine`: a span reaches a part of the line it starts in.
- `snippetByOffsets_returns`: the computation in byte offsets never stops.
- `snippet_aligned`: what a snippet shows, and that errors of templates have one.
-/

namespace Interpolation

variable {text source : String} {width : List Char → Nat} {span : Span} {n : Nat}

/-! ## Layer A: the computation in byte offsets -/

/-- The byte offset of the last line feed of a text. -/
def lastFeed? : List Char → Option Nat
  | [] => none
  | c :: cs =>
    match lastFeed? cs with
    | some i => some (c.utf8Size + i)
    | none => if c = '\n' then some 0 else none

/-- The byte offset at which the last line of a text starts. -/
def lastLineStart (text : List Char) : Nat := (lastFeed? text).elim 0 (· + 1)

/-- A line feed ends the first line of a text, or the text does. -/
def firstLineStop (text : List Char) : Nat :=
  match splitFirst ['\n'] text with
  | some (line, _) => (extent line).bytes
  | none => (extent text).bytes

/-- The number between two bounds that is closest to `n`.  The bounds must not cross. -/
def clampBetween (low high n : Nat) : Walk Nat :=
  Walk.attempt (if low ≤ high then some (max low (min n high)) else none)

/-- The line and the column of a byte offset. -/
def lineColumnByOffsets (text : String) (n : Nat) : Walk (Option (Nat × Nat)) :=
  match cutAt n text.toList with
  | none => pure none
  | some (before, _) => do
    let front ← Walk.slice text (lastLineStart before) n
    pure (some (before.count '\n' + 1, front.length + 1))

/-- The snippet of a span. -/
def snippetByOffsets (width : List Char → Nat) (source : String) (span : Span) :
    Walk (Option String) := do
  let start? ← lineColumnByOffsets source span.start
  let stop? ← lineColumnByOffsets source span.stop
  match start?, stop? with
  | some (lineNumber, _), some _ => do
    let before ← Walk.slice source 0 span.start
    let lineStart := lastLineStart before
    Walk.visit lineStart
    let behind ← Walk.sliceFrom source lineStart
    let lineStop := lineStart + firstLineStop behind
    Walk.visit lineStop
    let line ← Walk.slice source lineStart lineStop
    let front ← Walk.slice source lineStart span.start
    let markedStop ← clampBetween span.start lineStop span.stop
    Walk.visit markedStop
    let clipped ← Walk.slice source span.start markedStop
    pure (some (Snippet.render ⟨lineNumber, line, width front, max 1 (width clipped)⟩))
  | _, _ => pure none

/-! ## Layer B: lines -/

/-- Lines as they stand in a text that goes on behind them. -/
def endedLines (lines : List (List Char)) : List Char := lines.flatMap (· ++ ['\n'])

@[simp] theorem endedLines_nil : endedLines [] = [] := rfl

@[simp] theorem endedLines_cons (line : List Char) (lines : List (List Char)) :
    endedLines (line :: lines) = line ++ '\n' :: endedLines lines := by
  simp [endedLines]

/-- Any text is a row of lines with one more line behind it that is not ended. -/
theorem exists_lines (cs : List Char) :
    ∃ preceding last, cs = endedLines preceding ++ last ∧
      (∀ line ∈ preceding, '\n' ∉ line) ∧ '\n' ∉ last := by
  induction cs with
  | nil => exact ⟨[], [], rfl, by simp, by simp⟩
  | cons c cs ih =>
    obtain ⟨preceding, last, rfl, hpreceding, hlast⟩ := ih
    -- A line feed starts a new line in front; another character belongs to the first one.
    by_cases hc : c = '\n'
    · exact ⟨[] :: preceding, last, by simp [hc], by simpa using hpreceding, hlast⟩
    · cases preceding with
      | nil => exact ⟨[], c :: last, rfl, by simp, by simp [hlast, Ne.symm hc]⟩
      | cons line preceding =>
        refine ⟨(c :: line) :: preceding, last, by simp, ?_, hlast⟩
        simpa [Ne.symm hc] using hpreceding

/-- Lines in front of a place are none, or they end with a line feed. -/
theorem endedLines_cases (lines : List (List Char)) :
    endedLines lines = [] ∨ ∃ front, endedLines lines = front ++ ['\n'] := by
  induction lines with
  | nil => exact .inl rfl
  | cons line lines ih =>
    rcases ih with hnil | ⟨front, hfront⟩
    · exact .inr ⟨line, by simp [hnil]⟩
    · exact .inr ⟨line ++ '\n' :: front, by simp [hfront]⟩

section Lines

variable {preceding : List (List Char)} {last : List Char} (hlast : '\n' ∉ last)

include hlast

/-- There are as many line feeds as there are lines in front. -/
theorem count_lines (hpreceding : ∀ line ∈ preceding, '\n' ∉ line) :
    (endedLines preceding ++ last).count '\n' = preceding.length := by
  induction preceding with
  | nil => exact List.count_eq_zero.mpr hlast
  | cons line preceding ih =>
    obtain ⟨hline, hrest⟩ := List.forall_mem_cons.mp hpreceding
    rw [endedLines_cons, List.append_assoc, List.cons_append, List.count_append,
      List.count_cons_self, ih hrest, List.count_eq_zero.mpr hline, List.length_cons, Nat.zero_add]

theorem lastFeed?_of_feedless : lastFeed? last = none := by
  induction last with
  | nil => rfl
  | cons c cs ih =>
    rw [List.mem_cons, not_or] at hlast
    simp [lastFeed?, ih hlast.2, Ne.symm hlast.1]

theorem lastFeed?_append (front : List Char) :
    lastFeed? (front ++ '\n' :: last) = some (extent front).bytes := by
  induction front with
  | nil => simp [lastFeed?, lastFeed?_of_feedless hlast, Offset.zero]
  | cons c cs ih => simp [lastFeed?, ih, Offset.ofChar]

/-- The search for the last line feed finds where the last line starts. -/
theorem lastLineStart_eq :
    lastLineStart (endedLines preceding ++ last) = (extent (endedLines preceding)).bytes := by
  -- Without a line in front the search finds nothing and the line starts the text.
  rcases endedLines_cases preceding with hnil | ⟨front, hfront⟩
  · rw [hnil, List.nil_append, lastLineStart, lastFeed?_of_feedless hlast]
    rfl
  · have hfeed : '\n'.utf8Size = 1 := by decide
    rw [hfront, List.append_assoc, List.singleton_append, lastLineStart, lastFeed?_append hlast,
      extent_append]
    simp [Offset.ofChar, hfeed, Offset.zero]

theorem lastLine_eq : lastLine (endedLines preceding ++ last) = last := by
  -- Backwards, the last line is all there is up to the first line feed.
  have hall : ∀ c ∈ last.reverse, decide (c ≠ '\n') = true := by
    intro c hc
    refine decide_eq_true fun hfeed => hlast ?_
    rwa [← hfeed, ← List.mem_reverse]
  rcases endedLines_cases preceding with hnil | ⟨front, hfront⟩
  · rw [hnil, List.nil_append, lastLine, List.takeWhile_eq_self_iff.mpr hall,
      List.reverse_reverse]
  · rw [hfront, lastLine, List.append_assoc, List.singleton_append, List.reverse_append,
      List.reverse_cons, List.append_assoc, List.takeWhile_append_of_pos hall]
    simp

end Lines

/-- The search for the first line feed finds where the first line stops. -/
theorem firstLineStop_eq {line rest : List Char} (hline : '\n' ∉ line)
    (hrest : rest = [] ∨ ∃ later, rest = '\n' :: later) :
    firstLineStop (line ++ rest) = (extent line).bytes := by
  rcases hrest with rfl | ⟨later, rfl⟩
  · have hnone : splitFirst ['\n'] line = none := by
      apply splitFirst_eq_none_iff.mpr
      intro hmember
      exact hline (hmember.subset List.mem_cons_self)
    rw [List.append_nil, firstLineStop, hnone]
  · -- The line feed behind the line is the first one.
    have havoids : Avoids ['\n'] line ['\n'] := by
      intro a b hab hb hprefix
      obtain ⟨c, cs, rfl⟩ := List.exists_cons_of_ne_nil hb
      obtain ⟨rfl, -⟩ := List.cons_prefix_cons.mp hprefix
      exact hline (by simp [hab])
    have hsome : splitFirst ['\n'] (line ++ '\n' :: later) = some (line, later) :=
      splitFirst_eq_some_iff.mpr ⟨by simp, havoids⟩
    rw [firstLineStop, hsome]

/-- A line of a text starts behind what is in front of it and ends at the next line feed. -/
theorem exists_back (behind : List Char) :
    ∃ back rest, behind = back ++ rest ∧ behind.takeWhile (· ≠ '\n') = back ∧ '\n' ∉ back ∧
      (rest = [] ∨ ∃ later, rest = '\n' :: later) := by
  refine ⟨_, behind.dropWhile (· ≠ '\n'), List.takeWhile_append_dropWhile.symm, rfl, ?_, ?_⟩
  · intro hmem
    simpa using List.all_eq_true.mp List.all_takeWhile _ hmem
  · cases hrest : behind.dropWhile (· ≠ '\n') with
    | nil => exact .inl rfl
    | cons c later =>
      have hhead := List.head?_dropWhile_not (· ≠ '\n') behind
      rw [hrest] at hhead
      exact .inr ⟨later, by simpa using hhead⟩

/-! ## Layer C: the line of a span -/

/-- The line that a span starts in: `front` is the part in front of the span, and `clipped` is the
part that the span reaches.  A span that ends in front of its start reaches nothing, and one that
ends behind the line reaches the end of the line. -/
structure SpanLine (source : String) (span : Span) where
  /-- The lines in front. -/
  preceding : List (List Char)
  /-- The part of the line in front of the span. -/
  front : List Char
  /-- The part of the line that the span reaches. -/
  clipped : List Char
  /-- The part of the line behind the span. -/
  tail : List Char
  /-- What stands behind the line. -/
  rest : List Char
  /-- The five parts make up the text. -/
  text_eq : source.toList = endedLines preceding ++ (front ++ (clipped ++ tail)) ++ rest
  /-- The line holds no line feed. -/
  feedless : '\n' ∉ front ++ (clipped ++ tail)
  /-- Nor do the lines in front. -/
  feedless_preceding : ∀ line ∈ preceding, '\n' ∉ line
  /-- The line ends at a line feed or with the text. -/
  ends : rest = [] ∨ ∃ later, rest = '\n' :: later
  /-- The span starts behind `front`. -/
  start_eq : span.start = (extent (endedLines preceding ++ front)).bytes
  /-- The span ends on a boundary, wherever that is. -/
  stop_boundary : IsBoundary source span.stop
  /-- The end of `clipped` is the end of the span, clamped between its start and the end of the
  line. -/
  clipped_eq : (extent (endedLines preceding ++ front ++ clipped)).bytes =
    max span.start
      (min span.stop (extent (endedLines preceding ++ (front ++ (clipped ++ tail)))).bytes)

/-- Between two boundaries of a text, the boundary that is closest to a third one cuts what stands
between the two. -/
theorem exists_clamped {before back rest : List Char} (h : text.toList = before ++ (back ++ rest))
    (hn : IsBoundary text n) :
    ∃ clipped tail, back = clipped ++ tail ∧
      (extent (before ++ clipped)).bytes =
        max (extent before).bytes (min n (extent (before ++ back)).bytes) := by
  have hle := bytes_extent_le_append before back
  have hall : text.toList = (before ++ back) ++ rest := by simp [h]
  -- The clamped number is one of three, and each of them is a boundary.
  have hclamped : IsBoundary text
      (max (extent before).bytes (min n (extent (before ++ back)).bytes)) := by
    rcases max_choice (extent before).bytes (min n (extent (before ++ back)).bytes) with hm | hm
    · rw [hm]
      exact isBoundary_of_eq h
    · rw [hm]
      rcases min_choice n (extent (before ++ back)).bytes with hm | hm <;> rw [hm]
      · exact hn
      · exact isBoundary_of_eq hall
  obtain ⟨u, v, hsplit, hbytes⟩ := hclamped
  rw [← hbytes]
  rw [hall] at hsplit
  -- A boundary between two others cuts what stands between them.
  have hupper : u <+: before ++ back := prefix_of_bytes_le hsplit.symm (by omega)
  rw [List.append_assoc] at hsplit
  obtain ⟨clipped, rfl⟩ := prefix_of_bytes_le hsplit (by omega)
  obtain ⟨tail, rfl⟩ := (List.prefix_append_right_inj before).mp hupper
  exact ⟨clipped, tail, rfl, rfl⟩

/-- A span with both ends on boundaries starts in a line. -/
theorem exists_spanLine (hstart : IsBoundary source span.start)
    (hstop : IsBoundary source span.stop) : Nonempty (SpanLine source span) := by
  obtain ⟨before, behind, htext, hbytes⟩ := hstart
  obtain ⟨preceding, front, rfl, hpreceding, hfront⟩ := exists_lines before
  obtain ⟨back, rest, rfl, -, hback, hends⟩ := exists_back behind
  obtain ⟨clipped, tail, rfl, hclipped⟩ := exists_clamped htext hstop
  refine ⟨preceding, front, clipped, tail, rest, ?_, ?_, hpreceding, hends, hbytes.symm, hstop, ?_⟩
  · simp [htext]
  · rw [List.mem_append, not_or]
    exact ⟨hfront, hback⟩
  · rw [hclipped, hbytes, List.append_assoc]

namespace SpanLine

variable (line : SpanLine source span)

/-- What stands in front of the span. -/
def before : List Char := endedLines line.preceding ++ line.front

/-- The part of the line behind the start of the span. -/
def back : List Char := line.clipped ++ line.tail

def chars : List Char := line.front ++ line.back

def snippet (width : List Char → Nat) : Snippet :=
  ⟨line.preceding.length + 1, line.chars, width line.front, max 1 (width line.clipped)⟩

theorem split_start : source.toList = line.before ++ (line.back ++ line.rest) := by
  simp [line.text_eq, before, back]

theorem feedless_front : '\n' ∉ line.front :=
  fun h => line.feedless (List.mem_append_left _ h)

theorem feedless_back : '\n' ∉ line.back :=
  fun h => line.feedless (List.mem_append_right _ h)

theorem cutAt_start :
    cutAt span.start source.toList = some (line.before, line.back ++ line.rest) := by
  rw [line.start_eq, line.split_start]
  exact cutAt_append _ _

theorem takeWhile_behind :
    (line.back ++ line.rest).takeWhile (· ≠ '\n') = line.back := by
  have hall : ∀ c ∈ line.back, decide (c ≠ '\n') = true := by
    intro c hc
    refine decide_eq_true fun hfeed => line.feedless_back ?_
    rwa [← hfeed]
  rw [List.takeWhile_append_of_pos hall]
  rcases line.ends with hnil | ⟨later, hlater⟩
  · simp [hnil]
  · simp [hlater]

/-- What of the line the span covers, by the length of the span. -/
theorem within_back : Snippet.within span.length line.back = line.clipped := by
  have hclipped := line.clipped_eq
  have hbytes : (extent line.before).bytes = span.start := line.start_eq.symm
  have hlast : (extent (endedLines line.preceding ++ (line.front ++ line.back))).bytes =
      span.start + (extent line.back).bytes := by
    rw [← List.append_assoc, extent_append, Offset.bytes_add, line.start_eq]
  rw [← back, hlast, extent_append, Offset.bytes_add, ← line.start_eq] at hclipped
  rw [Span.length, Snippet.within]
  rcases Nat.lt_or_ge (extent line.back).bytes (span.stop - span.start) with hlt | hge
  · -- The span ends behind the line.
    have htail : line.tail = [] := by
      by_contra htail
      have hmore := bytes_extent_lt_append htail line.clipped
      rw [← back] at hmore
      omega
    have hcut : cutAt (span.stop - span.start) line.back = none := by
      rw [Option.eq_none_iff_forall_ne_some]
      rintro ⟨u, v⟩ hcut
      obtain ⟨hsplit, hu⟩ := cutAt_eq_some_iff.mp hcut
      have hle := bytes_extent_le_append u v
      rw [← hsplit] at hle
      omega
    rw [hcut]
    simp [back, htail]
  · -- The span ends within the line, or in front of its own start.
    have hlength : span.stop - span.start = (extent line.clipped).bytes := by omega
    rw [hlength, back, cutAt_append]

theorem lastLine_before : lastLine line.before = line.front := lastLine_eq line.feedless_front

theorem count_before : line.before.count '\n' = line.preceding.length :=
  count_lines line.feedless_front line.feedless_preceding

/-- The snippet of a span is that of its line. -/
theorem ofSpan?_eq (width : List Char → Nat) :
    Snippet.ofSpan? width source span = some (line.snippet width) := by
  obtain ⟨front, back, htext, hbytes⟩ := line.stop_boundary
  have hstop : cutAt span.stop source.toList = some (front, back) :=
    cutAt_eq_some_iff.mpr ⟨htext, hbytes⟩
  simp only [Snippet.ofSpan?, line.cutAt_start, hstop, line.lastLine_before, line.count_before,
    line.takeWhile_behind, line.within_back]
  rfl

end SpanLine

/-- A span has a snippet exactly if both of its ends are boundaries. -/
theorem ofSpan?_isSome_iff :
    (Snippet.ofSpan? width source span).isSome ↔
      IsBoundary source span.start ∧ IsBoundary source span.stop := by
  constructor
  · intro hsome
    by_contra hboundary
    rw [not_and_or, ← cutAt_eq_none_iff_not_isBoundary, ← cutAt_eq_none_iff_not_isBoundary]
      at hboundary
    rw [Snippet.ofSpan?] at hsome
    -- An end off the boundaries cuts the text nowhere.
    rcases hboundary with hcut | hcut
    · simp [hcut] at hsome
    · rw [hcut] at hsome
      cases cutAt span.start source.toList <;> simp at hsome
  · rintro ⟨hstart, hstop⟩
    obtain ⟨line⟩ := exists_spanLine hstart hstop
    rw [line.ofSpan?_eq]
    rfl

/-! ## Layer D: the computation in byte offsets never stops -/

theorem clampBetween_returns {low high : Nat} (h : low ≤ high) :
    (clampBetween low high n).Returns text (max low (min n high)) :=
  Walk.attempt_returns (if_pos h)

/-- The line and the column are computed without a stop. -/
theorem lineColumnByOffsets_returns (text : String) (n : Nat) :
    (lineColumnByOffsets text n).Returns text (lineColumn text n) := by
  rw [lineColumnByOffsets, lineColumn]
  cases hcut : cutAt n text.toList with
  | none => exact Walk.pure_returns text none
  | some halves =>
    obtain ⟨before, behind⟩ := halves
    obtain ⟨htext, rfl⟩ := cutAt_eq_some_iff.mp hcut
    obtain ⟨preceding, last, rfl, -, hlast⟩ := exists_lines before
    rw [List.append_assoc] at htext
    dsimp only
    rw [lastLineStart_eq hlast]
    refine (Walk.slice_returns htext).bind ?_
    rw [Option.map_some, lastLine_eq hlast]
    exact Walk.pure_returns text _

namespace SpanLine

variable (line : SpanLine source span)

theorem split_line :
    source.toList = endedLines line.preceding ++ (line.chars ++ line.rest) := by
  simp [line.text_eq, chars, back]

theorem split_front :
    source.toList = endedLines line.preceding ++ (line.front ++ (line.back ++ line.rest)) := by
  simp [line.text_eq, back]

theorem split_clipped :
    source.toList = line.before ++ (line.clipped ++ (line.tail ++ line.rest)) := by
  simp [line.text_eq, before]

theorem lineStart_eq : lastLineStart line.before = (extent (endedLines line.preceding)).bytes :=
  lastLineStart_eq line.feedless_front

theorem lineStop_eq :
    (extent (endedLines line.preceding)).bytes + firstLineStop (line.chars ++ line.rest) =
      (extent (endedLines line.preceding ++ line.chars)).bytes := by
  have hstop : firstLineStop (line.chars ++ line.rest) = (extent line.chars).bytes :=
    firstLineStop_eq line.feedless line.ends
  rw [hstop, extent_append, Offset.bytes_add]

theorem start_le_lineStop :
    span.start ≤ (extent (endedLines line.preceding ++ line.chars)).bytes := by
  rw [line.start_eq, chars, ← List.append_assoc]
  exact bytes_extent_le_append _ _

/-- Line and column of both ends of the span. -/
theorem exists_lineColumns : ∃ column stop,
    lineColumn source span.start = some (line.preceding.length + 1, column) ∧
      lineColumn source span.stop = some stop := by
  obtain ⟨front, back, htext, hbytes⟩ := line.stop_boundary
  have hstop : cutAt span.stop source.toList = some (front, back) :=
    cutAt_eq_some_iff.mpr ⟨htext, hbytes⟩
  rw [lineColumn, lineColumn, line.cutAt_start, hstop, Option.map_some, line.count_before]
  exact ⟨_, _, rfl, rfl⟩

theorem snippetByOffsets_returns (width : List Char → Nat) :
    (snippetByOffsets width source span).Returns source (some (line.snippet width).render) := by
  obtain ⟨column, stop, hstart, hstop⟩ := line.exists_lineColumns
  have hbefore : span.start = (extent ([] ++ line.before)).bytes := line.start_eq
  have hfront : span.start = (extent (endedLines line.preceding ++ line.front)).bytes :=
    line.start_eq
  have hmarked : max span.start
      (min span.stop (extent (endedLines line.preceding ++ line.chars)).bytes) =
        (extent (line.before ++ line.clipped)).bytes := line.clipped_eq.symm
  have hsplit : source.toList = line.before ++ line.clipped ++ (line.tail ++ line.rest) := by
    rw [line.split_clipped, List.append_assoc]
  have hlineStop : source.toList = endedLines line.preceding ++ line.chars ++ line.rest := by
    rw [line.split_line, List.append_assoc]
  refine (lineColumnByOffsets_returns source span.start).bind ?_
  refine (lineColumnByOffsets_returns source span.stop).bind ?_
  rw [hstart, hstop]
  -- The part in front of the span, the line, and the part that is marked.
  have hfirst : (Walk.slice source 0 span.start).Returns source line.before := by
    rw [hbefore]
    have hstart : source.toList = [] ++ (line.before ++ (line.back ++ line.rest)) :=
      line.split_start
    exact Walk.slice_returns hstart
  -- The offsets come in the order of the computation; each is where the line is taken apart.
  refine hfirst.bind ?_
  dsimp only
  rw [line.lineStart_eq]
  refine (Walk.visit_returns (isBoundary_of_eq line.split_line)).bind ?_
  refine (Walk.sliceFrom_returns line.split_line).bind ?_
  rw [line.lineStop_eq]
  refine (Walk.visit_returns (isBoundary_of_eq hlineStop)).bind ?_
  refine (Walk.slice_returns line.split_line).bind ?_
  have hsecond : (Walk.slice source (extent (endedLines line.preceding)).bytes span.start).Returns
      source line.front := by
    rw [hfront]
    exact Walk.slice_returns line.split_front
  refine hsecond.bind ?_
  refine (clampBetween_returns line.start_le_lineStop).bind ?_
  rw [hmarked]
  refine (Walk.visit_returns (isBoundary_of_eq hsplit)).bind ?_
  have hthird : (Walk.slice source span.start (extent (line.before ++ line.clipped)).bytes).Returns
      source line.clipped := by
    rw [line.start_eq]
    exact Walk.slice_returns line.split_clipped
  refine hthird.bind ?_
  exact Walk.pure_returns source _

end SpanLine

/-- **The computation in byte offsets never stops**, whatever the span is, and gives the snippet. -/
theorem snippetByOffsets_returns (width : List Char → Nat) (source : String) (span : Span) :
    (snippetByOffsets width source span).Returns source
      ((Snippet.ofSpan? width source span).map Snippet.render) := by
  by_cases hboundary : IsBoundary source span.start ∧ IsBoundary source span.stop
  · obtain ⟨line⟩ := exists_spanLine hboundary.1 hboundary.2
    rw [line.ofSpan?_eq]
    exact line.snippetByOffsets_returns width
  · -- Off the boundaries neither way gives a snippet, and no offset is computed.
    have hnone : Snippet.ofSpan? width source span = none := by
      have hiff : (Snippet.ofSpan? width source span).isSome ↔ _ := ofSpan?_isSome_iff
      rwa [← hiff, Option.not_isSome_iff_eq_none] at hboundary
    refine (lineColumnByOffsets_returns source span.start).bind ?_
    refine (lineColumnByOffsets_returns source span.stop).bind ?_
    rw [hnone]
    rw [not_and_or, ← cutAt_eq_none_iff_not_isBoundary, ← cutAt_eq_none_iff_not_isBoundary]
      at hboundary
    rcases hboundary with hcut | hcut
    · rw [lineColumn, hcut]
      exact Walk.pure_returns source none
    · have hstop : lineColumn source span.stop = none := by
        rw [lineColumn, hcut]
        rfl
      rw [hstop]
      cases lineColumn source span.start <;> exact Walk.pure_returns source none

/-! ## Layer E: what a snippet shows -/

/-- The two rows of a snippet: the line behind its number, and below it the marker behind a margin
of the same width. -/
theorem render_rows (s : Snippet) : ∃ number margin,
    number = (toString s.lineNumber).toList ∧ margin.length = number.length ∧
      (∀ c ∈ margin, c = ' ') ∧
      s.render = String.ofList
        (number ++ " | ".toList ++ s.line ++ '\n' :: (margin ++ " | ".toList ++
          List.replicate s.indent ' ' ++ '^' :: (List.replicate (s.marked - 1) '-' ++
            " here\n".toList))) := by
  refine ⟨_, List.replicate (toString s.lineNumber).toList.length ' ', rfl, ?_, ?_, ?_⟩
  · exact List.length_replicate
  · intro c hc
    exact List.eq_of_mem_replicate hc
  · simp [Snippet.render]

namespace SpanLine

variable (line : SpanLine source span)

/-- Where columns add up, the marker ends where the line does, or marks what has no columns. -/
theorem marked_within (column : Char → Nat)
    (hcolumns : ∀ t, t <:+: source.toList → '\n' ∉ t → width t = (t.map column).sum) :
    (line.snippet width).indent = (line.front.map column).sum ∧
      (line.snippet width).marked = max 1 (line.clipped.map column).sum ∧
      ((line.snippet width).indent + (line.snippet width).marked ≤ (line.chars.map column).sum ∨
        (line.snippet width).marked = 1 ∧ (line.clipped.map column).sum = 0) := by
  -- Each part of the line is a part of the text without line feeds, so its columns add up.
  have hfront : width line.front = (line.front.map column).sum :=
    hcolumns _ ⟨_, _, by rw [line.split_front, List.append_assoc]⟩ line.feedless_front
  have hfeedless : '\n' ∉ line.clipped :=
    fun h => line.feedless_back (List.mem_append_left _ h)
  have hclipped : width line.clipped = (line.clipped.map column).sum :=
    hcolumns _ ⟨_, _, by rw [line.split_clipped, List.append_assoc]⟩ hfeedless
  have hchars : (line.chars.map column).sum = (line.front.map column).sum +
      ((line.clipped.map column).sum + (line.tail.map column).sum) := by
    simp [chars, back]
  simp only [snippet, hfront, hclipped, hchars, true_and]
  omega

end SpanLine

/-! ## Layer F: diagnostics -/

/-- How a place is told by line and column. -/
def lineColumnText (line column : Nat) : String :=
  " [at line " ++ toString line ++ ", col " ++ toString column ++ "]"

/-- The line with the hint of an error, if it has one. -/
def Error.helpText (e : Error) : String :=
  (e.help.map fun help => "help" ++ ": " ++ help ++ "\n").getD ""

theorem Error.TrueOf.isBoundary {d : Delimiters} {e : Error} {pos : Nat}
    (h : e.TrueOf text d pos) : IsBoundary text e.span.start ∧ IsBoundary text e.span.stop := by
  obtain ⟨before, slice, behind, htext, hstart, hstop, -⟩ := h.stands
  refine ⟨⟨before, slice ++ behind, htext, hstart⟩, before ++ slice, behind, ?_, hstop⟩
  rw [htext, List.append_assoc]

/-- An error whose span lies on boundaries of its text is told by line and column, and with a
snippet. -/
theorem Diagnostic.text_of_boundaries {e : Error} {pos : Nat} (hsource : e.source = some text)
    (hpos : e.kind.position? = some pos) (hstart : IsBoundary text e.span.start)
    (hstop : IsBoundary text e.span.stop) :
    ∃ column snippet,
      Snippet.ofSpan? displayWidth text e.span = some snippet ∧
      lineColumn text e.span.start = some (snippet.lineNumber, column) ∧
      (Diagnostic.ofError e).place? = some (lineColumnText snippet.lineNumber column) ∧
      (Diagnostic.ofError e).snippet? = some snippet ∧
      (Diagnostic.ofError e).text = "Error" ++ lineColumnText snippet.lineNumber column ++ ":\n" ++
        e.message ++ "\n" ++ "\n" ++ snippet.render ++ e.helpText := by
  obtain ⟨line⟩ := exists_spanLine hstart hstop
  obtain ⟨column, stop, hfirst, hlast⟩ := line.exists_lineColumns
  have hsnippet := line.ofSpan?_eq displayWidth
  have hplace : (Diagnostic.ofError e).place? =
      some (lineColumnText (line.snippet displayWidth).lineNumber column) := by
    simp [Diagnostic.place?, Diagnostic.place, Diagnostic.ofError, hpos, hsource,
      Span.lineColumns, hfirst, hlast, lineColumnText, SpanLine.snippet]
  have hshown : (Diagnostic.ofError e).snippet? = some (line.snippet displayWidth) := by
    simp [Diagnostic.snippet?, Diagnostic.ofError, hpos, hsource, hsnippet]
  refine ⟨column, _, hsnippet, hfirst, hplace, hshown, ?_⟩
  have herror : (Diagnostic.ofError e).error = e := rfl
  rw [Diagnostic.text, Diagnostic.styled, hplace, hshown, herror, Error.helpText]
  cases e.help <;>
    simp only [Styled.plain, Styled.plainPiece, List.map_cons, List.map_nil, List.cons_append,
      List.nil_append, String.join_cons, String.join_nil, String.append_assoc, String.empty_append,
      String.append_empty, Option.map_some, Option.map_none, Option.getD_some, Option.getD_none]

/-- **Snippets are total and aligned.**  The computation in byte offsets never stops, and it gives a
snippet exactly for the spans with both ends on boundaries.  A snippet shows the line that the span
starts in under its number, with the marker below the part of the line that the span reaches; where
columns add up, the marker stays below the line, except for a single caret below what has no
columns.  Errors of templates that have a position are told by line and column, and with a
snippet. -/
theorem snippet_aligned :
    (∀ (width : List Char → Nat) (source : String) (span : Span),
      (snippetByOffsets width source span).Returns source
        ((Snippet.ofSpan? width source span).map Snippet.render) ∧
      ((Snippet.ofSpan? width source span).isSome ↔
        IsBoundary source span.start ∧ IsBoundary source span.stop) ∧
      ∀ snippet, Snippet.ofSpan? width source span = some snippet →
        (∃ number margin, number = (toString snippet.lineNumber).toList ∧
          margin.length = number.length ∧ (∀ c ∈ margin, c = ' ') ∧
          snippet.render = String.ofList
            (number ++ " | ".toList ++ snippet.line ++ '\n' :: (margin ++ " | ".toList ++
              List.replicate snippet.indent ' ' ++ '^' ::
                (List.replicate (snippet.marked - 1) '-' ++ " here\n".toList)))) ∧
        ∃ line : SpanLine source span,
          snippet.lineNumber = line.preceding.length + 1 ∧
          snippet.line = line.front ++ (line.clipped ++ line.tail) ∧
          snippet.indent = width line.front ∧ snippet.marked = max 1 (width line.clipped) ∧
          ∀ column : Char → Nat,
            (∀ t, t <:+: source.toList → '\n' ∉ t → width t = (t.map column).sum) →
            snippet.indent = (line.front.map column).sum ∧
            snippet.marked = max 1 (line.clipped.map column).sum ∧
            (snippet.indent + snippet.marked ≤ (snippet.line.map column).sum ∨
              snippet.marked = 1 ∧ (line.clipped.map column).sum = 0)) ∧
    ∀ text d e pos, parseTemplate Expression.parse text d = .error e →
      e.kind.position? = some pos →
      ∃ column snippet,
        Snippet.ofSpan? displayWidth text e.span = some snippet ∧
        lineColumn text e.span.start = some (snippet.lineNumber, column) ∧
        (Diagnostic.ofError e).place? = some (lineColumnText snippet.lineNumber column) ∧
        (Diagnostic.ofError e).snippet? = some snippet ∧
        (Diagnostic.ofError e).text = "Error" ++ lineColumnText snippet.lineNumber column ++
          ":\n" ++ e.message ++ "\n" ++ "\n" ++ snippet.render ++ e.helpText := by
  refine ⟨fun width source span => ?_, fun text d e pos h hpos => ?_⟩
  · refine ⟨snippetByOffsets_returns width source span, ofSpan?_isSome_iff, ?_⟩
    intro snippet hsnippet
    refine ⟨render_rows snippet, ?_⟩
    have hsome : (Snippet.ofSpan? width source span).isSome := by
      rw [hsnippet]
      rfl
    obtain ⟨hstart, hstop⟩ := ofSpan?_isSome_iff.mp hsome
    obtain ⟨line⟩ := exists_spanLine hstart hstop
    rw [line.ofSpan?_eq] at hsnippet
    cases hsnippet
    exact ⟨line, rfl, rfl, rfl, rfl, line.marked_within⟩
  · have hfault : ReadingFault .exact Expression.parse text d e := readingFault_of_position h hpos
    obtain ⟨hstart, hstop⟩ := (hfault.trueOf hpos).isBoundary
    exact Diagnostic.text_of_boundaries hfault.source_eq hpos hstart hstop

/-- On the second line of a text of single columns, below a bracket without its partner. -/
theorem snippet_aligned_bracket :
    parseTemplate Expression.parse "ab\n$\x7b (a] \x7d" .dollar =
        .error ⟨.mismatchedCloser 8 ']' '(' 6, ⟨8, 9⟩, none, some "ab\n$\x7b (a] \x7d"⟩ ∧
      (∀ t, t <:+: "ab\n$\x7b (a] \x7d".toList → '\n' ∉ t →
        displayWidth t = (t.map fun _ => 1).sum) ∧
      ∃ snippet, Snippet.ofSpan? displayWidth "ab\n$\x7b (a] \x7d" ⟨8, 9⟩ = some snippet ∧
        (Diagnostic.ofError ⟨.mismatchedCloser 8 ']' '(' 6, ⟨8, 9⟩, none,
          some "ab\n$\x7b (a] \x7d"⟩).snippet? = some snippet ∧
        (snippet.indent + snippet.marked ≤ snippet.line.length ∨ snippet.marked = 1) := by
  have hparse : parseTemplate Expression.parse "ab\n$\x7b (a] \x7d" .dollar =
      .error ⟨.mismatchedCloser 8 ']' '(' 6, ⟨8, 9⟩, none, some "ab\n$\x7b (a] \x7d"⟩ := by
    cbv
  have hprintable : ∀ c ∈ "ab\n$\x7b (a] \x7d".toList,
      c = '\n' ∨ 0x20 ≤ c.toNat ∧ c.toNat < 0x7F := by
    simp
  have hcolumns : ∀ t, t <:+: "ab\n$\x7b (a] \x7d".toList → '\n' ∉ t →
      displayWidth t = (t.map fun _ => 1).sum := by
    intro t ht hfeed
    have ht : ∀ c ∈ t, 0x20 ≤ c.toNat ∧ c.toNat < 0x7F := fun c hc =>
      (hprintable c (ht.subset hc)).resolve_left fun h => hfeed (h ▸ hc)
    rw [displayWidth_eq_length ht]
    simp
  obtain ⟨column, snippet, hsnippet, -, -, hshown, -⟩ :=
    snippet_aligned.2 _ .dollar _ _ hparse rfl
  refine ⟨hparse, hcolumns, snippet, hsnippet, hshown, ?_⟩
  obtain ⟨-, -, hshows⟩ := snippet_aligned.1 displayWidth "ab\n$\x7b (a] \x7d" ⟨8, 9⟩
  obtain ⟨-, line, -, -, -, -, haligned⟩ := hshows snippet hsnippet
  obtain ⟨-, -, hwithin | ⟨hone, -⟩⟩ := haligned _ hcolumns
  · left
    simpa using hwithin
  · exact .inr hone

end Interpolation
