import Interpolation.Proofs.ByteScan
import Interpolation.Proofs.TemplateParser
import Mathlib

/-!
# The division of a text, by byte offsets

The division into segments can be written as a loop over byte offsets: it searches the rest of the
text for the next opening token, computes where the tokens and the expression between them start
and stop, and cuts the text there.  Every offset it computes is the end of some beginning of the
text, so no cut goes through a character, and the loop builds what the division over characters
builds.

The offsets that the loop computes are those of the text.  Only the error of a parser for single
expressions brings in others, which are added to in machine words when the error is moved into the
text: a machine may stop there, or wrap around, unless the error lies in the expression.

## Architecture

- **Layer A**: the programs.
- **Layer B**: one round of the loop.
- **Layer C**: all rounds, over a row of blocks.
- **Layer D**: the entry points.

## Main definitions

- `FallibleBuilder`: a builder whose way of reading expressions may stop.
- `divideFrom`: the loop, with a bound on its rounds.
- `segmentByOffsets`, `parseByOffsets`: the segments and the template of a text.

## Main results

- `divideFrom_blocks`: from a boundary, the loop builds the pieces of a row of blocks.
- `Refusal.parseByOffsets_yields`, `ReadingFault.parseByOffsets_yields`: where a text has a failure,
  the reader reports it, or stops where it cannot be moved.
- `offsets_on_boundaries`: where the three programs stop, and what they return.
-/

namespace Interpolation

variable {τ ε : Type} {text : String} {d : Delimiters} {before rest : List Char}

/-! ## Layer A: the programs -/

/-- A builder of the pieces of a text that may stop on an expression. -/
structure FallibleBuilder (τ : Type) where
  /-- Makes a piece of static text. -/
  literal : String → Span → τ
  /-- Makes a piece of the text of an expression. -/
  expression : String → Span → Option (Except Error τ)

/-- A byte offset, with the characters in front of it. -/
def offsetAt (text : String) (n : Nat) : Offset := ⟨n, charOffset text n⟩

/-- The piece of the static text between two offsets; none if they are the same. -/
def FallibleBuilder.literalBetween (build : FallibleBuilder τ) (text : String) (start stop : Nat) :
    Walk (List τ) :=
  if start < stop then do
    let static ← Walk.slice text start stop
    pure [build.literal (String.ofList static) ⟨start, stop⟩]
  else pure []

/-- The piece of the expression whose opening token stands at `openingPos`, and the offset behind
its closing token. -/
def FallibleBuilder.readExpression (build : FallibleBuilder τ) (text : String) (d : Delimiters)
    (openingPos : Nat) : Walk (Except Error (τ × Nat)) := do
  let inside := openingPos + d.opening.utf8ByteSize
  Walk.visit inside
  let found ← skipToClosing text inside d.closing
  match found with
  | .error e => pure (.error e)
  | .ok none => do
    let remainder ← Walk.sliceFrom text openingPos
    pure (.error (d.unterminated (offsetAt text openingPos) remainder))
  | .ok (some closingPos) => do
    Walk.visit closingPos
    let raw ← Walk.slice text inside closingPos
    let next := closingPos + d.closing.utf8ByteSize
    Walk.visit next
    if trim raw = [] then
      pure (.error (d.empty (offsetAt text openingPos) (offsetAt text next)))
    else do
      let leading := (extent raw).bytes - (extent (trimStart raw)).bytes
      let span := Span.ofLength (inside + leading) (extent (trim raw)).bytes
      Walk.visit span.start
      Walk.visit span.stop
      let piece ← Walk.attempt (build.expression (String.ofList (trim raw)) span)
      pure (piece.map (·, next))

/-- The pieces of the text from `start` on.  Each round takes one expression with the static text in
front of it; the loop stops where it is out of rounds. -/
def divideFrom (text : String) (d : Delimiters) (build : FallibleBuilder τ) :
    Nat → Nat → Walk (Except Error (List τ))
  | 0, _ => Walk.stop
  | rounds + 1, start =>
    if text.utf8ByteSize ≤ start then pure (.ok [])
    else do
      Walk.visit start
      let behind ← Walk.sliceFrom text start
      match splitFirst d.opening.toList behind with
      | none =>
        pure (.ok [build.literal (String.ofList behind) ⟨start, text.utf8ByteSize⟩])
      | some (static, _) => do
        let openingPos := start + (extent static).bytes
        Walk.visit openingPos
        let front ← build.literalBetween text start openingPos
        let read ← build.readExpression text d openingPos
        match read with
        | .error e => pure (.error e)
        | .ok (piece, next) => do
          let pieces ← divideFrom text d build rounds next
          pure (pieces.map (front ++ piece :: ·))

/-- The pieces of a text, with more rounds than the text has bytes. -/
def divideByOffsets (text : String) (d : Delimiters) (build : FallibleBuilder τ) :
    Walk (Except Error (List τ)) :=
  divideFrom text d build (text.utf8ByteSize + 1) 0

/-- The builder of segments takes every expression as it is. -/
def FallibleBuilder.segments : FallibleBuilder Segment where
  literal := .literal
  expression raw span := some (.ok (.expression raw span))

/-- The builder of the pieces of a template, with a parser that may stop.  What the parser finds
wrong is moved into the text with the sums of a machine, which may stop, too. -/
def FallibleBuilder.parts (overflow : Overflow)
    (parser : String → Delimiters → Option (Except Error ε)) (d : Delimiters) (text : String) :
    FallibleBuilder (Part ε) where
  literal static _ := .literal static
  expression raw span :=
    (parser raw d).bind fun
      | .ok e => some (.ok (.expression e))
      | .error e => (e.rebaseBy overflow.addition (offsetAt text span.start)).map .error

/-- The template of a text, by byte offsets. -/
def parseByOffsets (overflow : Overflow) (parser : String → Delimiters → Option (Except Error ε))
    (text : String) (d : Delimiters) : Walk (Except Error (Template ε)) :=
  match d.check with
  | .error e => pure (.error e)
  | .ok _ =>
    if text = "" then pure (.ok (.literal ""))
    else do
      let pieces ← divideByOffsets text d (.parts overflow parser d text)
      pure (attachOrAssemble text pieces)

/-! ## Layer B: one round -/

variable {nonempty : d.opening ≠ ""} {build : Builder τ} {fallible : FallibleBuilder τ}
  {static behind : List Char} {body : Body}

/-- The fallible builder builds all that the other one builds.  On an expression that the other one
refuses it may do anything but build. -/
structure FallibleBuilder.Follows (fallible : FallibleBuilder τ) (build : Builder τ) : Prop where
  /-- Static text is built in the same way. -/
  literal : ∀ static span, fallible.literal static span = build.literal static span
  /-- An expression that the other one builds is built in the same way. -/
  expression : ∀ {raw span piece}, build.expression raw span = .ok piece →
    fallible.expression raw span = some (.ok piece)

/-- What a fallible builder makes of a segment. -/
def FallibleBuilder.ofSegment (fallible : FallibleBuilder τ) : Segment → Option (Except Error τ)
  | .literal text span => some (.ok (fallible.literal text span))
  | .expression text span => fallible.expression text span

/-- What is built is followed segment by segment. -/
theorem FallibleBuilder.Follows.ofSegment (hbuild : fallible.Follows build) {s : Segment}
    {piece : τ} (h : build.ofSegment s = .ok piece) :
    fallible.ofSegment s = some (.ok piece) := by
  cases s with
  | literal text span =>
    cases h
    rw [← hbuild.literal]
    rfl
  | expression text span => exact hbuild.expression h

theorem offsetAt_eq (h : text.toList = before ++ rest) :
    offsetAt text (extent before).bytes = extent before := by
  rw [offsetAt, charOffset_eq h]
  exact Offset.ext rfl (chars_extent before).symm

/-- Static text between two boundaries is built as by the division over characters. -/
theorem literalBetween_returns (hbuild : fallible.Follows build)
    (h : text.toList = before ++ (static ++ rest)) :
    (fallible.literalBetween text (extent before).bytes (extent (before ++ static)).bytes).Returns
      text (build.literalAt (extent before) static) := by
  rw [FallibleBuilder.literalBetween, Builder.literalAt]
  by_cases hstatic : static = []
  · subst hstatic
    rw [List.append_nil, if_neg (Nat.lt_irrefl _), if_pos rfl]
    exact Walk.pure_returns text []
  · rw [if_pos (bytes_extent_lt_append hstatic before), if_neg hstatic]
    refine (Walk.slice_returns h).bind ?_
    rw [hbuild.literal, ← extent_append]
    exact Walk.pure_returns text _

/-- The span of an expression, from what trimming takes away in front of it. -/
theorem span_trimmed (inside : List Char) {raw : List Char} :
    Span.ofLength ((extent inside).bytes + ((extent raw).bytes - (extent (trimStart raw)).bytes))
        (extent (trim raw)).bytes =
      .between (extent inside + extent (raw.takeWhile isBlank))
        (extent inside + extent (raw.takeWhile isBlank) + extent (trim raw)) := by
  have hraw : (extent raw).bytes =
      (extent (raw.takeWhile isBlank)).bytes + (extent (trimStart raw)).bytes := by
    rw [← Offset.bytes_add, ← extent_append, trimStart, List.takeWhile_append_dropWhile]
  rw [hraw, Nat.add_sub_cancel]
  rfl

/-- Both ends of the span of an expression are boundaries. -/
theorem isBoundary_trimmed {inside raw : List Char} (h : text.toList = inside ++ (raw ++ rest))
    (htrim : trim raw ≠ []) :
    IsBoundary text (extent inside + extent (raw.takeWhile isBlank)).bytes ∧
      IsBoundary text
        (extent inside + extent (raw.takeWhile isBlank) + extent (trim raw)).bytes := by
  obtain ⟨-, trail, -, hraw⟩ := exists_padding htrim
  rw [← extent_append, ← extent_append]
  constructor
  · have hstart : text.toList =
        (inside ++ raw.takeWhile isBlank) ++ (trim raw ++ trail ++ rest) := by
      rw [h]
      conv_lhs => rw [hraw]
      simp
    exact isBoundary_of_eq hstart
  · have hstop : text.toList =
        (inside ++ raw.takeWhile isBlank ++ trim raw) ++ (trail ++ rest) := by
      rw [h]
      conv_lhs => rw [hraw]
      simp
    exact isBoundary_of_eq hstop

section Expression

variable {opening inside : List Char}

theorem bytes_inside (opening : List Char) :
    (extent opening).bytes + d.opening.utf8ByteSize =
      (extent (opening ++ d.opening.toList)).bytes := by
  rw [extent_append, Offset.bytes_add, bytes_extent_toList]

variable (h : text.toList = opening ++ (d.opening.toList ++ behind))

include h

/-- The loop comes to the place behind the opening token, and searches for the closing one. -/
theorem readExpression_of_search {outcome : Except Error (Option Nat)}
    {go : Except Error (Option Nat) → Walk (Except Error (τ × Nat))}
    {found : Option (Except Error (τ × Nat))}
    (houtcome : located (extent (opening ++ d.opening.toList))
      (bodyOf d.closing.toList (extent (opening ++ d.opening.toList)) behind) = outcome)
    (hgo : (go outcome).Yields text found) :
    (do Walk.visit (extent (opening ++ d.opening.toList)).bytes
        let found ← skipToClosing text (extent (opening ++ d.opening.toList)).bytes d.closing
        go found).Yields text found := by
  rw [← List.append_assoc] at h
  refine .next (Walk.visit_returns (isBoundary_of_eq h)) ?_
  refine .next (skipToClosing_returns h) ?_
  rw [houtcome]
  exact hgo

theorem readExpression_fault {e : Error}
    (hbody : bodyOf d.closing.toList (extent (opening ++ d.opening.toList)) behind = .error e) :
    (fallible.readExpression text d (extent opening).bytes).Yields text (some (.error e)) := by
  simp only [FallibleBuilder.readExpression, bytes_inside]
  apply readExpression_of_search h (congrArg _ hbody)
  exact (Walk.pure_returns text _).yields

/-- Without a closing token the rest of the text is cut from the opening one on. -/
theorem readExpression_unclosed
    (hbody : bodyOf d.closing.toList (extent (opening ++ d.opening.toList)) behind = .ok none) :
    (fallible.readExpression text d (extent opening).bytes).Yields text
      (some (.error (d.unterminated (extent opening) (d.opening.toList ++ behind)))) := by
  simp only [FallibleBuilder.readExpression, bytes_inside]
  apply readExpression_of_search h (congrArg _ hbody)
  refine .next (Walk.sliceFrom_returns h) ?_
  rw [offsetAt_eq h]
  exact (Walk.pure_returns text _).yields

/-- With a closing token the text between the tokens is trimmed and handed to the builder. -/
theorem readExpression_body (fallible : FallibleBuilder τ)
    (hbody : bodyOf d.closing.toList (extent (opening ++ d.opening.toList)) behind =
      .ok (some body)) :
    (fallible.readExpression text d (extent opening).bytes).Yields text
      (if trim body.text = [] then
        some (.error (d.empty (extent opening)
          (extent (opening ++ d.opening.toList ++ body.text ++ d.closing.toList))))
      else
        (fallible.expression (String.ofList (trim body.text))
          (.between (extent (opening ++ d.opening.toList) + extent (body.text.takeWhile isBlank))
            (extent (opening ++ d.opening.toList) + extent (body.text.takeWhile isBlank) +
              extent (trim body.text)))).map fun piece => piece.map
        (·, (extent (opening ++ d.opening.toList ++ body.text ++ d.closing.toList)).bytes)) := by
  obtain ⟨rfl, -, -⟩ := bodyOf_eq_some_iff.mp hbody
  have hraw : text.toList =
      (opening ++ d.opening.toList) ++ (body.text ++ (d.closing.toList ++ body.rest)) := by
    simp [h]
  have hclosing : text.toList =
      (opening ++ d.opening.toList ++ body.text) ++ (d.closing.toList ++ body.rest) := by
    simp [h]
  have hnext : text.toList =
      (opening ++ d.opening.toList ++ body.text ++ d.closing.toList) ++ body.rest := by
    simp [h]
  -- The search comes back with the offset of the closing token.
  have hfound : located (extent (opening ++ d.opening.toList)) (.ok (some body)) =
      .ok (some (extent (opening ++ d.opening.toList ++ body.text)).bytes) := by
    rw [extent_append _ body.text]
    rfl
  have hbytes : (extent (opening ++ d.opening.toList ++ body.text)).bytes +
      d.closing.utf8ByteSize =
        (extent (opening ++ d.opening.toList ++ body.text ++ d.closing.toList)).bytes := by
    rw [extent_append _ d.closing.toList, Offset.bytes_add, bytes_extent_toList]
  simp only [FallibleBuilder.readExpression, bytes_inside]
  apply readExpression_of_search h ((congrArg _ hbody).trans hfound)
  refine .next (Walk.visit_returns (isBoundary_of_eq hclosing)) ?_
  refine .next (Walk.slice_returns hraw) ?_
  rw [hbytes]
  refine .next (Walk.visit_returns (isBoundary_of_eq hnext)) ?_
  -- A blank expression is a fault at both tokens; any other goes to the builder, trimmed.
  split
  · rw [offsetAt_eq h, offsetAt_eq hnext]
    exact (Walk.pure_returns text _).yields
  · next htrim =>
    obtain ⟨hstart, hstop⟩ := isBoundary_trimmed hraw htrim
    rw [span_trimmed]
    refine .next (Walk.visit_returns hstart) ?_
    refine .next (Walk.visit_returns hstop) ?_
    exact (Walk.attempt_yields text _).map _

end Expression

/-- From an opening token on, a round reads an expression, and the loop goes on behind it.  It does
not go on behind an expression that was not read. -/
theorem divideFrom_opening (hbuild : fallible.Follows build) {rounds : Nat}
    (h : text.toList = before ++ rest)
    (hsplit : splitFirst d.opening.toList rest = some (static, behind))
    (hopening : d.opening ≠ "") {read : Option (Except Error (τ × Nat))}
    {after : τ → Nat → Option (Except Error (List τ))}
    (hread : (fallible.readExpression text d (extent (before ++ static)).bytes).Yields text read)
    (hafter : ∀ piece next, read = some (.ok (piece, next)) →
      (divideFrom text d fallible rounds next).Yields text (after piece next)) :
    (divideFrom text d fallible (rounds + 1) (extent before).bytes).Yields text
      (read.bind fun
        | .error e => some (.error e)
        | .ok (piece, next) => (after piece next).map fun pieces =>
          pieces.map (build.literalAt (extent before) static ++ piece :: ·)) := by
  have hsides : rest = static ++ d.opening.toList ++ behind := splitFirst_eq_some hsplit
  have hstatic : text.toList = before ++ (static ++ (d.opening.toList ++ behind)) := by
    simp [h, hsides]
  have htoken : text.toList = (before ++ static) ++ (d.opening.toList ++ behind) := by
    simp [h, hsides]
  have hat : (extent before).bytes + (extent static).bytes = (extent (before ++ static)).bytes := by
    rw [extent_append, Offset.bytes_add]
  have hrest : rest ≠ [] := by
    rintro rfl
    have hpos := List.length_pos_iff.mpr (String.toList_eq_nil_iff.not.mpr hopening)
    have hlen := congrArg List.length hsides
    simp only [List.length_append, List.length_nil] at hlen
    omega
  -- There is text left, since the token has characters.
  have hmore : ¬ text.utf8ByteSize ≤ (extent before).bytes := by
    rw [← bytes_extent_toList, h, Nat.not_le]
    exact bytes_extent_lt_append hrest before
  rw [divideFrom, if_neg hmore]
  refine .next (Walk.visit_returns (isBoundary_of_eq h)) ?_
  refine .next (Walk.sliceFrom_returns h) ?_
  simp only [hsplit, hat]
  refine .next (Walk.visit_returns (isBoundary_of_eq htoken)) ?_
  refine .next (literalBetween_returns hbuild hstatic) ?_
  apply hread.bind
  intro found hfound
  -- The loop ends with the fault, or goes on behind the closing token.
  cases found with
  | error e => exact (Walk.pure_returns text _).yields
  | ok read => exact (hafter read.1 read.2 hfound).map _

/-- The loop does not go on behind an expression that is not read. -/
theorem divideFrom_unread (hbuild : fallible.Follows build) {rounds : Nat}
    (h : text.toList = before ++ rest)
    (hsplit : splitFirst d.opening.toList rest = some (static, behind))
    (hopening : d.opening ≠ "") {outcome : Option Error}
    (hread : (fallible.readExpression text d (extent (before ++ static)).bytes).Yields text
      (outcome.map .error)) :
    (divideFrom text d fallible (rounds + 1) (extent before).bytes).Yields text
      (outcome.map .error) := by
  -- There is nothing to go on with.
  have hafter : ∀ (piece : τ) (next : Nat), outcome.map Except.error = some (.ok (piece, next)) →
      (divideFrom text d fallible rounds next).Yields text none := by
    intro piece next hok
    cases outcome <;> cases hok
  have hround := divideFrom_opening hbuild h hsplit hopening hread hafter
  cases outcome with
  | none => exact hround
  | some e => exact hround

/-- A round ends the loop where there is only static text. -/
theorem divideFrom_static (hbuild : fallible.Follows build) (rounds : Nat)
    (h : text.toList = before ++ rest) (hnext : nextExpression d (extent before) rest = .static) :
    (divideFrom text d fallible (rounds + 1) (extent before).bytes).Returns text
      (.ok (build.literalAt (extent before) rest)) := by
  rw [divideFrom, Builder.literalAt]
  by_cases hrest : rest = []
  · -- At the end of the text there is no piece at all.
    have hend : text.utf8ByteSize = (extent before).bytes := by
      rw [← bytes_extent_toList, h, hrest, List.append_nil]
    rw [if_pos (Nat.le_of_eq hend), if_pos hrest]
    exact Walk.pure_returns text _
  · have hmore : ¬ text.utf8ByteSize ≤ (extent before).bytes := by
      rw [← bytes_extent_toList, h, Nat.not_le]
      exact bytes_extent_lt_append hrest before
    -- No opening token is found, or there would be an expression or a fault.
    have hsplit : splitFirst d.opening.toList rest = none := by
      cases hsplit : splitFirst d.opening.toList rest with
      | none => rfl
      | some sides =>
        rw [nextExpression, hsplit] at hnext
        dsimp only at hnext
        split at hnext
        · cases hnext
        · cases hnext
        · split at hnext <;> cases hnext
    rw [if_neg hmore, if_neg hrest]
    refine .bind (Walk.visit_returns (isBoundary_of_eq h)) ?_
    refine .bind (Walk.sliceFrom_returns h) ?_
    simp only [hsplit, hbuild.literal, ← bytes_extent_toList, h, extent_append]
    exact Walk.pure_returns text _

/-- A round ends the loop where the next expression has a fault. -/
theorem divideFrom_broken (hbuild : fallible.Follows build) (rounds : Nat) {e : Error}
    (hopening : d.opening ≠ "") (h : text.toList = before ++ rest)
    (hnext : nextExpression d (extent before) rest = .broken e) :
    (divideFrom text d fallible (rounds + 1) (extent before).bytes).Returns text (.error e) := by
  unfold nextExpression at hnext
  split at hnext
  · cases hnext
  · next static behind hsplit =>
    have hsides : rest = static ++ d.opening.toList ++ behind := splitFirst_eq_some hsplit
    have htoken : text.toList = (before ++ static) ++ (d.opening.toList ++ behind) := by
      simp [h, hsides]
    simp only [← extent_append] at hnext
    -- Whatever the fault is, nothing is read.
    have hread : (fallible.readExpression text d (extent (before ++ static)).bytes).Yields text
        (some (.error e)) := by
      split at hnext
      · next hbody =>
        cases hnext
        exact readExpression_fault htoken hbody
      · next hbody =>
        cases hnext
        exact readExpression_unclosed htoken hbody
      · next body hbody =>
        split at hnext
        · next htrim =>
          cases hnext
          have hblank := readExpression_body htoken fallible hbody
          rwa [if_pos htrim] at hblank
        · cases hnext
    have hround : (divideFrom text d fallible (rounds + 1) (extent before).bytes).Yields text
        ((some e).map .error) :=
      divideFrom_unread hbuild h hsplit hopening hread
    exact hround.returns

section Block

variable {b : Block} {rounds : Nat} (hbuild : fallible.Follows build) (hopening : d.opening ≠ "")
  (hb : b.WellFormed d) (h : text.toList = before ++ (b.written d ++ rest))

include hb h

/-- What is read of a block: what the builder makes of its expression. -/
theorem readExpression_block (fallible : FallibleBuilder τ) :
    (fallible.readExpression text d (extent (before ++ b.before)).bytes).Yields text
      ((fallible.ofSegment (b.expression d (extent before))).map fun piece =>
        piece.map (·, (extent (before ++ b.written d)).bytes)) := by
  have htoken : text.toList = (before ++ b.before) ++
      (d.opening.toList ++ (b.body ++ (d.closing.toList ++ rest))) := by
    simp [h, Block.written]
  have hread := readExpression_body htoken fallible (b.bodyOf_eq hb _ rest)
  have hblock : before ++ b.before ++ d.opening.toList ++ b.body ++ d.closing.toList =
      before ++ b.written d := by
    simp [Block.written]
  have hlead : b.body.takeWhile isBlank = b.lead := takeWhile_padded hb.lead hb.raw
  have hstart : extent (before ++ b.before ++ d.opening.toList) + extent b.lead =
      b.start d (extent before) := by
    rw [Block.start, ← extent_append, ← extent_append]
    simp
  rw [b.trim_body hb, if_neg hb.raw.ne_nil, hblock, hlead, hstart] at hread
  exact hread

include hbuild hopening

/-- A round takes a block whose expression is built, and the loop goes on behind the block. -/
theorem divideFrom_block {piece : τ} {after : Option (Except Error (List τ))}
    (hpiece : build.ofSegment (b.expression d (extent before)) = .ok piece)
    (hafter : (divideFrom text d fallible rounds (extent (before ++ b.written d)).bytes).Yields text
      after) :
    (divideFrom text d fallible (rounds + 1) (extent before).bytes).Yields text
      (after.map fun pieces =>
        pieces.map (build.literalAt (extent before) b.before ++ piece :: ·)) := by
  have hread := readExpression_block hb h fallible
  rw [hbuild.ofSegment hpiece] at hread
  have hbehind : ∀ piece' next, (some (Except.ok piece)).map (fun piece : Except Error τ =>
      piece.map (·, (extent (before ++ b.written d)).bytes)) = some (.ok (piece', next)) →
      (divideFrom text d fallible rounds next).Yields text after := by
    rintro piece' next ⟨⟩
    exact hafter
  exact divideFrom_opening hbuild h (b.splitFirst_written hb rest) hopening hread hbehind

theorem divideFrom_refused {outcome : Option Error}
    (hpiece : fallible.ofSegment (b.expression d (extent before)) = outcome.map .error) :
    (divideFrom text d fallible (rounds + 1) (extent before).bytes).Yields text
      (outcome.map .error) := by
  have hread := readExpression_block hb h fallible
  rw [hpiece, Option.map_map] at hread
  exact divideFrom_unread hbuild h (b.splitFirst_written hb rest) hopening hread

end Block

/-! ## Layer C: all rounds -/

/-- **From a boundary, the loop builds the pieces of a row of blocks**, and goes on behind them with
the rounds that are left. -/
theorem divideFrom_blocks (hbuild : fallible.Follows build) (hopening : d.opening ≠ "")
    {blocks : List Block} {rounds : Nat} {pieces : List τ} {after : Option (Except Error (List τ))}
    (h : text.toList = before ++ (written d blocks ++ rest))
    (hblocks : ∀ b ∈ blocks, b.WellFormed d)
    (hpieces : (segmentsOf d (extent before) blocks).mapM build.ofSegment = .ok pieces)
    (hafter : (divideFrom text d fallible rounds (extent (before ++ written d blocks)).bytes).Yields
      text after) :
    (divideFrom text d fallible (rounds + blocks.length) (extent before).bytes).Yields text
      (after.map fun others => others.map (pieces ++ ·)) := by
  -- The next block starts at another boundary, so the text in front of it is general.
  induction blocks generalizing before pieces with
  | nil =>
    cases hpieces
    rw [written_nil, List.append_nil] at hafter
    have hsame : (fun others : Except Error (List τ) => others.map ([].reverse ++ ·)) = id := by
      funext others
      cases others <;> rfl
    rw [hsame, Option.map_id]
    exact hafter
  | cons b blocks ih =>
    rw [List.forall_mem_cons] at hblocks
    obtain ⟨hb, hblocks⟩ := hblocks
    rw [segmentsOf, List.mapM_append, mapM_block] at hpieces
    obtain ⟨first, hfirst, hrest⟩ := bind_eq_ok_iff.mp hpieces
    obtain ⟨others, hothers, heq⟩ := bind_eq_ok_iff.mp hrest
    cases heq
    -- The expression of the first block is built, since all of them are.
    cases hpiece : build.ofSegment (b.expression d (extent before)) with
    | error e =>
      rw [hpiece] at hfirst
      cases hfirst
    | ok piece =>
      rw [hpiece] at hfirst
      cases hfirst
      rw [written_cons, List.append_assoc] at h
      rw [written_cons, ← List.append_assoc] at hafter
      rw [← extent_append] at hothers
      have hnext : text.toList = (before ++ b.written d) ++ (written d blocks ++ rest) := by
        simp [h]
      have hround := divideFrom_block hbuild hopening hb h hpiece (ih hnext hblocks hothers hafter)
      rw [Option.map_map] at hround
      rw [List.length_cons, ← Nat.add_assoc]
      convert hround using 2
      funext pieces
      cases pieces <;> simp [Except.map]

/-! ## Layer D: the entry points -/

section Rows

variable {blocks : List Block} {pieces : List τ} (hbuild : fallible.Follows build)
  (hopening : d.opening ≠ "") (h : text.toList = written d blocks ++ rest)
  (hblocks : ∀ b ∈ blocks, b.WellFormed d)
  (hpieces : (segmentsOf d .zero blocks).mapM build.ofSegment = .ok pieces)

include hbuild hopening h hblocks hpieces

/-- There are rounds left behind any row of blocks. -/
theorem divideByOffsets_blocks {after : Option (Except Error (List τ))}
    (hafter : ∀ rounds, (divideFrom text d fallible (rounds + 1)
      (extent (written d blocks)).bytes).Yields text after) :
    (divideByOffsets text d fallible).Yields text
      (after.map fun others => others.map (pieces ++ ·)) := by
  have hlength := length_le_written hopening blocks
  have hbytes := length_le_bytes_extent text.toList
  rw [bytes_extent_toList, h, List.length_append] at hbytes
  -- There are no more blocks than bytes.
  have hrounds : text.utf8ByteSize + 1 =
      text.utf8ByteSize - blocks.length + 1 + blocks.length := by
    omega
  have hstart : text.toList = [] ++ (written d blocks ++ rest) := h
  rw [divideByOffsets, hrounds]
  exact divideFrom_blocks hbuild hopening hstart hblocks hpieces (hafter _)

/-- Static text behind a row of blocks is the last piece. -/
theorem divideByOffsets_template (htail : Avoids d.opening.toList rest []) :
    (divideByOffsets text d fallible).Returns text
      (.ok (pieces ++ build.literalAt (extent (written d blocks)) rest)) := by
  have hnext : nextExpression d (extent (written d blocks)) rest = .static :=
    (nextExpression_eq_static_iff hopening).mpr htail
  have hrun := divideByOffsets_blocks hbuild hopening h hblocks hpieces fun rounds =>
    (divideFrom_static hbuild rounds h hnext).yields
  exact hrun.returns

theorem divideByOffsets_faulty {e : Error}
    (hbroken : nextExpression d (extent (written d blocks)) rest = .broken e) :
    (divideByOffsets text d fallible).Returns text (.error e) := by
  have hrun := divideByOffsets_blocks hbuild hopening h hblocks hpieces fun rounds =>
    (divideFrom_broken hbuild rounds hopening h hbroken).yields
  exact hrun.returns

/-- A block behind a row of blocks whose expression is not built decides. -/
theorem divideByOffsets_refused {b : Block} {behind : List Char} {outcome : Option Error}
    (hb : b.WellFormed d) (hrest : rest = b.written d ++ behind)
    (hpiece : fallible.ofSegment (b.expression d (extent (written d blocks))) =
      outcome.map .error) :
    (divideByOffsets text d fallible).Yields text (outcome.map .error) := by
  rw [hrest] at h
  have hrun := divideByOffsets_blocks hbuild hopening h hblocks hpieces fun rounds =>
    divideFrom_refused hbuild hopening hb h hpiece
  rwa [Option.map_map] at hrun

end Rows

/-- The parts of expressions that the parser accepts have nothing to do with the sums. -/
theorem parts_follows (overflow : Overflow) (parser : SubParser ε) (d : Delimiters)
    (text : String) :
    (FallibleBuilder.parts overflow (fun raw d => some (parser raw d)) d text).Follows
      (.parts parser d text) where
  literal _ _ := rfl
  expression := by
    intro raw span piece h
    simp only [Builder.parts] at h
    cases hraw : parser raw d with
    | error e =>
      rw [hraw] at h
      cases h
    | ok e =>
      rw [hraw] at h
      cases h
      simp only [FallibleBuilder.parts, Option.bind_some, hraw]

section Parser

variable {parser : SubParser ε} {origin : Offset} {e : Error} (overflow : Overflow)

theorem parseByOffsets_eq {attempt : String → Delimiters → Option (Except Error ε)}
    (hcheck : d.check = .ok ()) (htext : text ≠ "") :
    parseByOffsets overflow attempt text d = (do
      let pieces ← divideByOffsets text d (.parts overflow attempt d text)
      pure (attachOrAssemble text pieces)) := by
  rw [parseByOffsets, hcheck]
  simp only [htext, if_false]

/-- The first expression that is refused decides: its error is moved into the text, or the reader
stops where it cannot be moved. -/
theorem Refusal.parseByOffsets_yields (hcheck : d.check = .ok ())
    (h : Refusal parser text d origin e) :
    (parseByOffsets overflow (fun raw d => some (parser raw d)) text d).Yields text
      ((e.rebaseBy overflow.addition origin).map fun moved => .error (moved.withSource text)) := by
  obtain ⟨hopening, -⟩ := Delimiters.check_eq_ok_iff.mp hcheck
  cases h with
  | @first blocks b rest e hsplit hblocks haccepted hrefused =>
    have hfront : text.toList = written d blocks ++ (b.written d ++ rest) := by
      simp [hsplit, written_append]
    obtain ⟨parts, hparts⟩ := acceptsAll_iff.mp haccepted
    -- The builder moves the error, or stops.
    have hpiece : (FallibleBuilder.parts overflow (fun raw d => some (parser raw d)) d
        text).ofSegment (b.expression d (extent (written d blocks))) =
          (e.rebaseBy overflow.addition (b.start d (extent (written d blocks)))).map .error := by
      rw [← charOffset_start hfront]
      simp only [FallibleBuilder.ofSegment, Block.expression, FallibleBuilder.parts,
        Option.bind_some, hrefused]
      rfl
    rw [parseByOffsets_eq overflow hcheck (ne_empty_of_block hopening hsplit)]
    have hrun := divideByOffsets_refused (parts_follows overflow parser d text) hopening hfront
      (fun b' hb' => hblocks b' (List.mem_append_left _ hb')) hparts
      (hblocks b (List.mem_append_right _ List.mem_cons_self)) rfl hpiece
    have hdone := hrun.map (attachOrAssemble text)
    rwa [Option.map_map] at hdone

/-- Where no expression is refused, no sum is asked for, and the reader returns what the reader over
characters returns. -/
theorem parseByOffsets_returns
    (h : d.check = .ok () → ∀ origin e, ¬ Refusal parser text d origin e) :
    (parseByOffsets overflow (fun raw d => some (parser raw d)) text d).Returns text
      (parseTemplate parser text d) := by
  cases hcheck : d.check with
  | error e =>
    rw [parseByOffsets, hcheck, parseTemplate, Delimiters.guarded_of_check hcheck]
    exact Walk.pure_returns text _
  | ok _ =>
    obtain ⟨hopening, hclosing⟩ := Delimiters.check_eq_ok_iff.mp hcheck
    rcases text_cases hopening text with rfl | ⟨htext, blocks, rest, hsplit, hblocks, hrest⟩
    · rw [parseByOffsets, hcheck, parseTemplate, Delimiters.guarded_eq hopening hclosing]
      exact Walk.pure_returns _ _
    · rw [parseByOffsets_eq overflow hcheck htext,
        parseTemplate_of_blocks hopening hclosing htext hsplit hblocks]
      cases hparts : (segmentsOf d .zero blocks).mapM (Builder.parts parser d text).ofSegment with
      -- A failure of a part would be a refused expression.
      | error e' =>
        obtain ⟨origin, e, hrefusal, -⟩ := exists_refusal hsplit hblocks hparts
        exact absurd hrefusal (h hcheck origin e)
      | ok parts =>
        have hbuild := parts_follows overflow parser d text
        -- Static text or a fault follows the last block.
        rcases hrest with htail | ⟨e, hbroken⟩
        · rw [divide_static ((nextExpression_eq_static_iff hopening).mpr htail)]
          have hrun := divideByOffsets_template hbuild hopening hsplit hblocks hparts htail
          exact (hrun.yields.map (attachOrAssemble text)).returns
        · rw [divide_broken hbroken]
          have hrun := divideByOffsets_faulty hbuild hopening hsplit hblocks hparts hbroken
          exact (hrun.yields.map (attachOrAssemble text)).returns

/-- A failure that can be told in the text is the outcome. -/
theorem ReadingFault.parseByOffsets_returns (hcheck : d.check = .ok ())
    (h : ReadingFault overflow.addition parser text d e) :
    (parseByOffsets overflow (fun raw d => some (parser raw d)) text d).Returns text
      (.error e) := by
  obtain ⟨hopening, hclosing⟩ := Delimiters.check_eq_ok_iff.mp hcheck
  cases h with
  | expression hrefusal hmoved =>
    obtain ⟨moved, hrebase, rfl⟩ := Error.moved_iff.mp hmoved
    have hrun := hrefusal.parseByOffsets_yields overflow hcheck
    rw [hrebase] at hrun
    exact hrun.returns
  | @division blocks rest e hsplit hblocks haccepted hbroken hsegment =>
    have htext : text ≠ "" := ne_empty_of_segment_eq_error hopening hclosing hsegment
    -- The loop comes to the fault, since it builds the parts of all blocks in front of it.
    obtain ⟨parts, hparts⟩ := acceptsAll_iff.mp haccepted
    have hrun := divideByOffsets_faulty (parts_follows overflow parser d text) hopening hsplit
      hblocks hparts hbroken
    rw [parseByOffsets_eq overflow hcheck htext]
    exact (hrun.yields.map (attachOrAssemble text)).returns

/-- A refused expression whose error lies in it is reported as by the reader over characters. -/
theorem parseByOffsets_returns_of_tellsWithin (htells : parser.TellsWithin)
    (htext : text.utf8ByteSize < wordSize) (d : Delimiters) :
    (parseByOffsets overflow (fun raw d => some (parser raw d)) text d).Returns text
      (parseTemplate parser text d) := by
  rcases refusal_cases parser text d with ⟨hcheck, origin, e, hrefusal⟩ | hnone
  · obtain ⟨hopening, hclosing⟩ := Delimiters.check_eq_ok_iff.mp hcheck
    have hrun := hrefusal.parseByOffsets_yields overflow hcheck
    rw [Error.rebaseBy_eq_rebase (hrefusal.not_overflows htells htext)] at hrun
    rw [hrefusal.parseTemplate_eq hopening hclosing]
    exact hrun.returns
  · exact parseByOffsets_returns overflow hnone

end Parser

-- A parser that tells of a place behind any text stops a machine that checks its sums.
example : (parseByOffsets (ε := Unit) .stops
    (fun _ _ => some (.error (.unspanned (.malformedExpression (wordSize - 1) "far")))) "$\x7bx\x7d"
    .dollar).result = none := by
  cbv

end Interpolation
