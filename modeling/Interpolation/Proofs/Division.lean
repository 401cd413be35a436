import Interpolation.Proofs.Scan
import Interpolation.Segment.Basic
import Mathlib.Data.List.Forall2

/-!
# The division of a text into segments

A text that has segments is a row of blocks with static text behind them, and a block is static text
with one expression behind it.  The blocks are a grammar of templates: each says of itself, and of
nothing in front of it, what static text and expression have to look like.

## Architecture

- **Layer A**: blocks, and the text and the segments of a row of blocks.
- **Layer B**: `nextExpression` reads one block.
- **Layer C**: `divide` reads a row of blocks, with any builder.
- **Layer D**: `segment`.

## Main definitions

- `Block`, `Block.WellFormed`: an expression with the static text in front of it.
- `written`, `segmentsOf`: the text and the segments of a row of blocks.
- `staticSegments`: the segments of static text.
- `Segment.WrittenAs`, `Segment.StandsIn`: the piece of the text that a segment is written as, and
  where its own text stands.

## Main results

- `nextExpression_block`, `exists_block`: an expression is read exactly where a block starts.
- `divide_blocks`: a row of blocks is handed to the builder, segment by segment.
- `exists_blocks`: any text is a row of blocks up to where no further expression can be read.
- `segment_eq_ok_iff`: the texts that have segments, and which segments these are.
-/

namespace Interpolation

variable {τ : Type} {d : Delimiters} {here : Offset} {text rest : List Char}

/-! ## Layer A: blocks -/

/-- The segments of static text that starts at `here`: none if it is empty, and else a single one
with all of the text and both of its ends. -/
def staticSegments (here : Offset) (static : List Char) : List Segment :=
  if static = [] then []
  else [.literal (String.ofList static) ⟨here.bytes, (here + extent static).bytes⟩]

/-- An expression between blanks, with the static text in front of it. -/
structure Block where
  /-- The static text. -/
  before : List Char
  /-- The blanks between the opening token and the expression. -/
  lead : List Char
  /-- The expression. -/
  raw : List Char
  /-- The blanks between the expression and the closing token. -/
  trail : List Char

namespace Block

/-- What stands between the two delimiters. -/
def body (b : Block) : List Char := b.lead ++ b.raw ++ b.trail

/-- A block as it stands in a text. -/
def written (d : Delimiters) (b : Block) : List Char :=
  b.before ++ (d.opening.toList ++ (b.body ++ d.closing.toList))

/-- What a block may look like.  The static text runs up to the first opening token, and the
expression up to the first closing token that stands behind a balanced text. -/
structure WellFormed (d : Delimiters) (b : Block) : Prop where
  /-- The opening token is the first one. -/
  avoids : Avoids d.opening.toList b.before d.opening.toList
  /-- Blanks follow it. -/
  lead : AllBlank b.lead
  /-- The expression is not empty, and no blank is at its ends. -/
  raw : IsTrimmed b.raw
  /-- Blanks follow the expression. -/
  trail : AllBlank b.trail
  /-- The text between the two tokens is balanced. -/
  balanced : Balanced b.body
  /-- No closing token counts before the last one. -/
  noneLive : NoneLive d.closing.toList b.body d.closing.toList

/-- Where the expression of a block stands. -/
def start (d : Delimiters) (here : Offset) (b : Block) : Offset :=
  here + extent (b.before ++ (d.opening.toList ++ b.lead))

/-- The expression of a block that stands at `here`. -/
def expression (d : Delimiters) (here : Offset) (b : Block) : Segment :=
  .expression (String.ofList b.raw)
    (.between (b.start d here) (b.start d here + extent b.raw))

/-- The segments of a block that stands at `here`. -/
def segments (d : Delimiters) (here : Offset) (b : Block) : List Segment :=
  staticSegments here b.before ++ [b.expression d here]

end Block

/-- A row of blocks as it stands in a text. -/
def written (d : Delimiters) (blocks : List Block) : List Char := blocks.flatMap (·.written d)

/-- The segments of a row of blocks that starts at `here`. -/
def segmentsOf (d : Delimiters) (here : Offset) : List Block → List Segment
  | [] => []
  | b :: blocks => b.segments d here ++ segmentsOf d (here + extent (b.written d)) blocks

@[simp] theorem written_nil (d : Delimiters) : written d [] = [] := rfl

@[simp] theorem written_cons (d : Delimiters) (b : Block) (blocks : List Block) :
    written d (b :: blocks) = b.written d ++ written d blocks := rfl

theorem written_append (d : Delimiters) (blocks blocks' : List Block) :
    written d (blocks ++ blocks') = written d blocks ++ written d blocks' :=
  List.flatMap_append

theorem Block.length_pos (hopening : d.opening ≠ "") (b : Block) : 0 < (b.written d).length := by
  have hpos : 0 < d.opening.toList.length :=
    List.length_pos_iff.mpr fun h => hopening (String.toList_eq_nil_iff.mp h)
  simp only [Block.written, List.length_append]
  omega

theorem Block.start_extent (d : Delimiters) (b : Block) (u : List Char) :
    b.start d (extent u) = extent (u ++ (b.before ++ (d.opening.toList ++ b.lead))) := by
  rw [extent_append, Block.start]

/-- A row of blocks has no more blocks than characters. -/
theorem length_le_written (hopening : d.opening ≠ "") (blocks : List Block) :
    blocks.length ≤ (written d blocks).length := by
  induction blocks with
  | nil => exact Nat.le_refl 0
  | cons b blocks ih =>
    have hpos := b.length_pos hopening
    rw [written_cons, List.length_append, List.length_cons]
    omega

/-! ## Layer B: one block -/

theorem noneLive_token_iff {closing u : List Char} :
    NoneLive closing u (closing ++ rest) ↔ NoneLive closing u closing := by
  unfold NoneLive
  simp only [prefix_append_token_iff]

/-- The rest of a text is static if no opening token occurs in it. -/
theorem nextExpression_eq_static_iff (hopening : d.opening ≠ "") :
    nextExpression d here text = .static ↔ Avoids d.opening.toList text [] := by
  have htoken : d.opening.toList ≠ [] := fun h => hopening (String.toList_eq_nil_iff.mp h)
  rw [avoids_nil_iff htoken, ← splitFirst_eq_none_iff, nextExpression]
  cases splitFirst d.opening.toList text with
  | none => simp
  | some sides =>
    dsimp only
    split
    · simp
    · simp
    · split <;> simp

theorem Block.splitFirst_written {b : Block} (h : b.WellFormed d) (rest : List Char) :
    splitFirst d.opening.toList (b.written d ++ rest) =
      some (b.before, b.body ++ (d.closing.toList ++ rest)) :=
  splitFirst_eq_some_iff.mpr ⟨by simp [Block.written], h.avoids⟩

theorem Block.bodyOf_eq {b : Block} (h : b.WellFormed d) (inside : Offset) (rest : List Char) :
    bodyOf d.closing.toList inside (b.body ++ (d.closing.toList ++ rest)) =
      .ok (some ⟨b.body, rest⟩) :=
  bodyOf_eq_some_iff.mpr ⟨rfl, h.balanced, noneLive_token_iff.mpr h.noneLive⟩

theorem Block.trim_body {b : Block} (h : b.WellFormed d) : trim b.body = b.raw := by
  rw [Block.body, trim_padded h.lead h.raw h.trail]

theorem nextExpression_block {b : Block} (h : b.WellFormed d) (here : Offset) (rest : List Char) :
    nextExpression d here (b.written d ++ rest) = .expression b.before ⟨b.body, rest⟩ := by
  -- An expression is not empty.
  have htrim : trim b.body ≠ [] := by
    rw [Block.trim_body h]
    exact h.raw.ne_nil
  simp only [nextExpression, Block.splitFirst_written h, Block.bodyOf_eq h, htrim, if_false]

/-- Where an expression is read, a block starts. -/
theorem exists_block {before : List Char} {body : Body}
    (h : nextExpression d here text = .expression before body) :
    ∃ b : Block, b.WellFormed d ∧ text = b.written d ++ body.rest := by
  unfold nextExpression at h
  split at h
  · cases h
  · next hsplit =>
    dsimp only at h
    split at h
    · cases h
    · cases h
    · next hbody =>
      split at h
      · cases h
      · next htrim =>
        cases h
        -- The opening token is the first one, and the closing token the first that counts.
        obtain ⟨rfl, havoids⟩ := splitFirst_eq_some_iff.mp hsplit
        obtain ⟨hbehind, hbalanced, hnone⟩ := bodyOf_eq_some_iff.mp hbody
        -- The body gives the blanks at its ends and the expression between them.
        obtain ⟨hraw, trail, htrail, hpadded⟩ := exists_padding htrim
        have hlead : AllBlank (body.text.takeWhile isBlank) :=
          fun c hc => List.all_eq_true.mp List.all_takeWhile c hc
        refine ⟨⟨before, body.text.takeWhile isBlank, trim body.text, trail⟩,
          ⟨havoids, hlead, hraw, htrail, ?_, ?_⟩, ?_⟩
        · rwa [Block.body, ← hpadded]
        · rw [Block.body, ← hpadded]
          exact noneLive_token_iff.mp hnone
        · rw [hbehind]
          simp [Block.written, Block.body, ← hpadded]

/-! ## Layer C: a row of blocks -/

variable {nonempty : d.opening ≠ ""} {build : Builder τ}

theorem divide_static (h : nextExpression d here text = .static) :
    divide d nonempty build here text = .ok (build.literalAt here text) := by
  rw [divide.eq_def]
  split
  · next hnil => simp [Builder.literalAt, hnil]
  · split <;> simp_all

/-- An expression that cannot be read ends the division. -/
theorem divide_broken {e : Error} (h : nextExpression d here text = .broken e) :
    divide d nonempty build here text = .error e := by
  have htext : text ≠ [] := by
    rintro rfl
    rw [(nextExpression_eq_static_iff nonempty).mpr (Avoids.nil _ _)] at h
    cases h
  rw [divide.eq_def, if_neg htext]
  split <;> simp_all

/-- What a builder makes of a segment. -/
def Builder.ofSegment (build : Builder τ) : Segment → Except Error τ
  | .literal text span => .ok (build.literal text span)
  | .expression text span => build.expression text span

/-- The builder of segments gives back the segments that it is handed. -/
theorem mapM_segments (segs : List Segment) : segs.mapM Builder.segments.ofSegment = .ok segs := by
  induction segs with
  | nil => rfl
  | cons s segs ih =>
    have hs : Builder.segments.ofSegment s = .ok s := by cases s <;> rfl
    rw [List.mapM_cons, hs, ih]
    rfl

theorem mapM_staticSegments (build : Builder τ) (here : Offset) (text : List Char) :
    (staticSegments here text).mapM build.ofSegment = .ok (build.literalAt here text) := by
  unfold staticSegments Builder.literalAt
  split <;> rfl

/-- What a builder makes of a block: the piece of its expression behind that of its static text. -/
theorem mapM_block (build : Builder τ) (b : Block) (here : Offset) :
    (b.segments d here).mapM build.ofSegment =
      (build.ofSegment (b.expression d here)).map fun piece =>
        build.literalAt here b.before ++ [piece] := by
  rw [Block.segments, List.mapM_append, mapM_staticSegments]
  cases hpiece : build.ofSegment (b.expression d here) with
  | error e => simp [hpiece, bind, Except.bind, Except.map]
  | ok piece => simp [hpiece, bind, Except.bind, pure, Except.pure, Except.map]

theorem expressionAt_body {b : Block} (h : b.WellFormed d) (build : Builder τ) (here : Offset) :
    build.expressionAt (here + extent b.before + extent d.opening.toList) b.body =
      build.ofSegment (b.expression d here) := by
  rw [Block.body, Builder.expressionAt, takeWhile_padded h.lead h.raw,
    trim_padded h.lead h.raw h.trail]
  simp only [Block.expression, Builder.ofSegment, Block.start, extent_append, Offset.add_assoc]

/-- A builder is handed the segments of a block, and then those of what is behind it. -/
theorem divide_block {b : Block} (h : b.WellFormed d) (here : Offset) (rest : List Char) :
    divide d nonempty build here (b.written d ++ rest) =
      ((b.segments d here).mapM build.ofSegment).bind fun pieces =>
        (divide d nonempty build (here + extent (b.written d)) rest).map (pieces ++ ·) := by
  -- A block is never empty.
  have htext : b.written d ++ rest ≠ [] := by
    intro hnil
    have hpos := b.length_pos nonempty
    rw [(List.append_eq_nil_iff.mp hnil).1] at hpos
    exact absurd hpos (Nat.lt_irrefl 0)
  have hnext := nextExpression_block h here rest
  -- The places that the division counts up to are those of the parts of the block.
  have hstop : here + extent b.before + extent d.opening.toList + extent b.body +
      extent d.closing.toList = here + extent (b.written d) := by
    simp only [Block.written, extent_append, Offset.add_assoc]
  rw [divide.eq_def, if_neg htext]
  split
  · next hstatic => simp [hnext] at hstatic
  · next hbroken => simp [hnext] at hbroken
  · next before body hread =>
    rw [hnext] at hread
    cases hread
    dsimp only
    rw [expressionAt_body h, hstop, mapM_block]
    cases build.ofSegment (b.expression d here) with
    | error e => rfl
    | ok piece =>
      cases divide d nonempty build (here + extent (b.written d)) rest <;>
        simp [Except.bind, Except.map]

/-- A builder is handed the segments of a row of blocks, and then those of what is behind it. -/
theorem divide_blocks {blocks : List Block} (h : ∀ b ∈ blocks, b.WellFormed d) (here : Offset)
    (rest : List Char) :
    divide d nonempty build here (written d blocks ++ rest) =
      ((segmentsOf d here blocks).mapM build.ofSegment).bind fun pieces =>
        (divide d nonempty build (here + extent (written d blocks)) rest).map (pieces ++ ·) := by
  -- Along the row; the places move on by what each block is written as.
  induction blocks generalizing here with
  | nil =>
    rw [written_nil, List.nil_append, extent_nil, Offset.add_zero, segmentsOf, List.mapM_nil]
    cases divide d nonempty build here rest <;> rfl
  | cons b blocks ih =>
    have hb : b.WellFormed d := h b List.mem_cons_self
    have hblocks : ∀ b ∈ blocks, b.WellFormed d := fun b hb => h b (List.mem_cons_of_mem _ hb)
    rw [written_cons, List.append_assoc, divide_block hb, ih hblocks, segmentsOf,
      List.mapM_append, extent_append, Offset.add_assoc]
    -- Three runs in the order of the text: the first failure of any of them is that of the whole.
    cases (b.segments d here).mapM build.ofSegment with
    | error e => rfl
    | ok first =>
      cases (segmentsOf d (here + extent (b.written d)) blocks).mapM build.ofSegment with
      | error e => rfl
      | ok second =>
        cases divide d nonempty build (here + (extent (b.written d) + extent (written d blocks)))
          rest with
        | error e => rfl
        | ok third => simp [bind, Except.bind, pure, Except.pure, Except.map]

/-- Where only static text follows a row of blocks, a builder is handed all segments of the text. -/
theorem divide_template {blocks : List Block} (h : ∀ b ∈ blocks, b.WellFormed d)
    {tail : List Char} (htail : Avoids d.opening.toList tail []) (here : Offset) :
    divide d nonempty build here (written d blocks ++ tail) =
      (segmentsOf d here blocks ++
        staticSegments (here + extent (written d blocks)) tail).mapM
          build.ofSegment := by
  rw [divide_blocks h, divide_static ((nextExpression_eq_static_iff nonempty).mpr htail),
    List.mapM_append, mapM_staticSegments]
  cases (segmentsOf d here blocks).mapM build.ofSegment <;> rfl

theorem divide_faulty {blocks : List Block} (h : ∀ b ∈ blocks, b.WellFormed d) {e : Error}
    (hrest : nextExpression d (here + extent (written d blocks)) rest = .broken e) :
    divide d nonempty build here (written d blocks ++ rest) =
      ((segmentsOf d here blocks).mapM build.ofSegment).bind fun _ => .error e := by
  rw [divide_blocks h, divide_broken hrest]
  rfl

/-- Any text is a row of blocks up to where no further expression can be read. -/
theorem exists_blocks (nonempty : d.opening ≠ "") (here : Offset) (text : List Char) :
    ∃ blocks rest, (∀ b ∈ blocks, Block.WellFormed d b) ∧ text = written d blocks ++ rest ∧
      (nextExpression d (here + extent (written d blocks)) rest = .static ∨
        ∃ e, nextExpression d (here + extent (written d blocks)) rest = .broken e) := by
  -- The induction is on the length of the text: a block is never empty.
  induction hn : text.length using Nat.strongRecOn generalizing here text with
  | ind n ih =>
    cases hnext : nextExpression d here text with
    | static =>
      exact ⟨[], text, by simp, rfl, .inl hnext⟩
    | broken e =>
      exact ⟨[], text, by simp, rfl, .inr ⟨e, hnext⟩⟩
    | expression before body =>
      obtain ⟨b, hb, rfl⟩ := exists_block hnext
      -- What is behind the block is shorter.
      have hlt : body.rest.length < n := by
        have hpos := b.length_pos nonempty
        rw [List.length_append] at hn
        omega
      obtain ⟨blocks, rest, hblocks, hrest, hend⟩ :=
        ih _ hlt (here + extent (b.written d)) body.rest rfl
      refine ⟨b :: blocks, rest, ?_, ?_, ?_⟩
      · intro b' hb'
        rcases List.mem_cons.mp hb' with rfl | hmem
        · exact hb
        · exact hblocks b' hmem
      · rw [written_cons, List.append_assoc, ← hrest]
      · rw [written_cons, extent_append, ← Offset.add_assoc]
        exact hend

/-! ## Layer D: the segments of a text -/

/-- The piece of a text that a segment is written as. -/
inductive Segment.WrittenAs (d : Delimiters) : Segment → List Char → Prop where
  /-- Static text is written as it is, and is not empty. -/
  | literal {static : List Char} (span : Span) : static ≠ [] →
      WrittenAs d (.literal (String.ofList static) span) static
  /-- An expression is written between the two delimiters, and blanks may stand around it. -/
  | expression {lead raw trail : List Char} (span : Span) :
      AllBlank lead → IsTrimmed raw → AllBlank trail →
      WrittenAs d (.expression (String.ofList raw) span)
        (d.opening.toList ++ (lead ++ raw ++ trail ++ d.closing.toList))

/-- Static text is written as its segments are. -/
theorem exists_pieces_static (d : Delimiters) (here : Offset) (static : List Char) :
    ∃ pieces, List.Forall₂ (Segment.WrittenAs d) (staticSegments here static) pieces ∧
      static = pieces.flatten := by
  by_cases hstatic : static = []
  · refine ⟨[], ?_, hstatic⟩
    rw [staticSegments, if_pos hstatic]
    exact .nil
  · refine ⟨[static], ?_, by simp⟩
    rw [staticSegments, if_neg hstatic]
    exact .cons (.literal _ hstatic) .nil

/-- Rows of segments are written one behind the other. -/
theorem exists_pieces_append {segs segs' : List Segment} {u v : List Char}
    (hu : ∃ pieces, List.Forall₂ (Segment.WrittenAs d) segs pieces ∧ u = pieces.flatten)
    (hv : ∃ pieces, List.Forall₂ (Segment.WrittenAs d) segs' pieces ∧ v = pieces.flatten) :
    ∃ pieces, List.Forall₂ (Segment.WrittenAs d) (segs ++ segs') pieces ∧
      u ++ v = pieces.flatten := by
  obtain ⟨first, hfirst, rfl⟩ := hu
  obtain ⟨second, hsecond, rfl⟩ := hv
  exact ⟨first ++ second, List.rel_append hfirst hsecond, List.flatten_append.symm⟩

theorem Block.exists_pieces {b : Block} (h : b.WellFormed d) (here : Offset) :
    ∃ pieces, List.Forall₂ (Segment.WrittenAs d) (b.segments d here) pieces ∧
      b.written d = pieces.flatten :=
  exists_pieces_append (exists_pieces_static d here b.before)
    ⟨[_], .cons (.expression _ h.lead h.raw h.trail) .nil, (List.flatten_singleton).symm⟩

/-- A row of blocks is written as its segments are. -/
theorem exists_pieces_segmentsOf {blocks : List Block} (h : ∀ b ∈ blocks, b.WellFormed d)
    (here : Offset) :
    ∃ pieces, List.Forall₂ (Segment.WrittenAs d) (segmentsOf d here blocks) pieces ∧
      written d blocks = pieces.flatten := by
  induction blocks generalizing here with
  | nil => exact ⟨[], .nil, rfl⟩
  | cons b blocks ih =>
    rw [List.forall_mem_cons] at h
    exact exists_pieces_append (b.exists_pieces h.1 here) (ih h.2 _)

/-- A segment is what stands in the text at its span. -/
def Segment.StandsIn (text : String) (s : Segment) : Prop :=
  IsSlice text s.span.start s.span.stop s.text.toList

theorem isSlice_extent {text : String} {front slice rest : List Char}
    (h : text.toList = front ++ (slice ++ rest)) :
    IsSlice text (extent front).bytes (extent front + extent slice).bytes slice := by
  refine ⟨front, rest, ?_, rfl, ?_⟩
  · rw [h, List.append_assoc]
  · rw [extent_append]

theorem standsIn_staticSegments {text : String} {front slice rest : List Char}
    (h : text.toList = front ++ (slice ++ rest)) :
    ∀ s ∈ staticSegments (extent front) slice, s.StandsIn text := by
  intro s hs
  unfold staticSegments at hs
  split at hs
  · cases hs
  · rw [List.mem_singleton] at hs
    subst hs
    simpa [Segment.StandsIn, Segment.text, Segment.span] using isSlice_extent h

theorem mem_segmentsOf_cons_iff {s : Segment} {b : Block} {blocks : List Block} :
    s ∈ segmentsOf d here (b :: blocks) ↔
      s ∈ staticSegments here b.before ∨ s = b.expression d here ∨
        s ∈ segmentsOf d (here + extent (b.written d)) blocks := by
  rw [segmentsOf, Block.segments, List.append_assoc, List.mem_append, List.mem_append,
    List.mem_singleton]

/-- The segments of a row of blocks stand where they say. -/
theorem standsIn_segmentsOf {text : String} {front rest : List Char} {blocks : List Block}
    (h : text.toList = front ++ (written d blocks ++ rest)) :
    ∀ s ∈ segmentsOf d (extent front) blocks, s.StandsIn text := by
  induction blocks generalizing front with
  | nil =>
    intro s hs
    cases hs
  | cons b blocks ih =>
    intro s hs
    rcases mem_segmentsOf_cons_iff.mp hs with hs | rfl | hs
    · have hbefore : text.toList = front ++ (b.before ++ (d.opening.toList ++ (b.body ++
          d.closing.toList) ++ (written d blocks ++ rest))) := by
        simp [h, Block.written]
      exact standsIn_staticSegments hbefore s hs
    · have hraw : text.toList = (front ++ (b.before ++ (d.opening.toList ++ b.lead))) ++ (b.raw ++
          (b.trail ++ d.closing.toList ++ (written d blocks ++ rest))) := by
        simp [h, Block.written, Block.body]
      have hslice := isSlice_extent hraw
      rw [extent_append] at hslice
      simpa [Segment.StandsIn, Segment.text, Segment.span, Block.expression, Block.start,
        Span.between] using hslice
    · have hblocks : text.toList = (front ++ b.written d) ++ (written d blocks ++ rest) := by
        simp [h]
      rw [← extent_append] at hs
      exact ih hblocks s hs

theorem segment_empty (hopening : d.opening ≠ "") (hclosing : d.closing ≠ "") :
    segment "" d = .ok [.literal "" ⟨0, 0⟩] := by
  rw [segment, Delimiters.guarded_eq hopening hclosing, if_pos rfl]

theorem ne_empty_of_segment_eq_error {text : String} {e : Error} (hopening : d.opening ≠ "")
    (hclosing : d.closing ≠ "") (h : segment text d = .error e) : text ≠ "" := by
  rintro rfl
  rw [segment_empty hopening hclosing] at h
  cases h

/-- Only an empty text has no segments. -/
theorem segments_ne_nil {blocks : List Block} {tail : List Char} (here stop : Offset)
    (h : written d blocks ++ tail ≠ []) :
    segmentsOf d here blocks ++ staticSegments stop tail ≠ [] := by
  -- A block has a segment for its expression, and static text that is not empty has one.
  cases blocks with
  | nil =>
    rw [written_nil, List.nil_append] at h
    simp [segmentsOf, staticSegments, h]
  | cons b blocks => simp [segmentsOf, Block.segments]

theorem segment_eq_divide {text : String} (hopening : d.opening ≠ "") (hclosing : d.closing ≠ "")
    (htext : text ≠ "") : segment text d = divide d hopening .segments .zero text.toList := by
  rw [segment, Delimiters.guarded_eq hopening hclosing, if_neg htext]

/-- A text of blocks with static text behind them has their segments. -/
theorem segment_template {text : String} {blocks : List Block} {tail : List Char}
    (hopening : d.opening ≠ "") (hclosing : d.closing ≠ "") (htext : text ≠ "")
    (hsplit : text.toList = written d blocks ++ tail) (hblocks : ∀ b ∈ blocks, b.WellFormed d)
    (htail : Avoids d.opening.toList tail []) :
    segment text d = .ok (segmentsOf d .zero blocks ++
      staticSegments (extent (written d blocks)) tail) := by
  rw [segment_eq_divide hopening hclosing htext, hsplit, divide_template hblocks htail,
    Offset.zero_add, mapM_segments]

/-- A text with a fault behind some blocks has no segments. -/
theorem segment_faulty {text : String} {blocks : List Block} {e : Error}
    (hopening : d.opening ≠ "") (hclosing : d.closing ≠ "") (htext : text ≠ "")
    (hsplit : text.toList = written d blocks ++ rest) (hblocks : ∀ b ∈ blocks, b.WellFormed d)
    (hbroken : nextExpression d (extent (written d blocks)) rest = .broken e) :
    segment text d = .error e := by
  rw [← Offset.zero_add (extent (written d blocks))] at hbroken
  rw [segment_eq_divide hopening hclosing htext, hsplit, divide_faulty hblocks hbroken,
    mapM_segments]
  rfl

/-- Behind its blocks, a text that is not empty has static text or a fault. -/
theorem text_cases (hopening : d.opening ≠ "") (text : String) :
    text = "" ∨ text ≠ "" ∧ ∃ blocks rest, text.toList = written d blocks ++ rest ∧
      (∀ b ∈ blocks, Block.WellFormed d b) ∧
      (Avoids d.opening.toList rest [] ∨
        ∃ e, nextExpression d (extent (written d blocks)) rest = .broken e) := by
  by_cases htext : text = ""
  · exact .inl htext
  · obtain ⟨blocks, rest, hblocks, hsplit, hend⟩ := exists_blocks hopening .zero text.toList
    rw [Offset.zero_add, nextExpression_eq_static_iff hopening] at hend
    exact .inr ⟨htext, blocks, rest, hsplit, hblocks, hend⟩

theorem tokens_of_segment {text : String} {segs : List Segment} (h : segment text d = .ok segs) :
    d.opening ≠ "" ∧ d.closing ≠ "" :=
  Delimiters.nonempty_of_guarded h

/-- The segments of a row of blocks with static text behind it stand where they say. -/
theorem standsIn_template {text : String} {blocks : List Block} {tail : List Char}
    (h : text.toList = written d blocks ++ tail) :
    ∀ s ∈ segmentsOf d .zero blocks ++ staticSegments (extent (written d blocks)) tail,
      s.StandsIn text := by
  intro s hs
  rcases List.mem_append.mp hs with hs | hs
  · have hfront : text.toList = [] ++ (written d blocks ++ tail) := h
    exact standsIn_segmentsOf hfront s hs
  · have hall : text.toList = written d blocks ++ (tail ++ []) := by simp [h]
    exact standsIn_staticSegments hall s hs

/-- **The texts that have segments, and which segments these are.**  The empty text is one empty
piece of static text.  Any other text is a row of well-formed blocks with static text behind it that
holds no opening token; the segments are those of the blocks and of the static text, the pieces that
they are written as make up the text, and each segment stands at its span. -/
theorem segment_eq_ok_iff (text : String) (d : Delimiters) (segs : List Segment) :
    segment text d = .ok segs ↔
      d.opening ≠ "" ∧ d.closing ≠ "" ∧
        (text = "" ∧ segs = [.literal "" ⟨0, 0⟩] ∨
          text ≠ "" ∧ ∃ blocks tail, text.toList = written d blocks ++ tail ∧
            (∀ b ∈ blocks, Block.WellFormed d b) ∧ Avoids d.opening.toList tail [] ∧
            segs = segmentsOf d .zero blocks ++
              staticSegments (extent (written d blocks)) tail ∧
            (∃ pieces, List.Forall₂ (Segment.WrittenAs d) segs pieces ∧
              text.toList = pieces.flatten) ∧
            ∀ s ∈ segs, s.StandsIn text) := by
  constructor
  · intro h
    obtain ⟨hopening, hclosing⟩ := tokens_of_segment h
    refine ⟨hopening, hclosing, ?_⟩
    -- Any text is empty, or a row of blocks with static text or with a fault behind it.
    rcases text_cases hopening text with rfl |
      ⟨htext, blocks, tail, hsplit, hblocks, htail | ⟨e, hbroken⟩⟩
    · rw [segment_empty hopening hclosing] at h
      exact .inl ⟨rfl, (Except.ok.inj h).symm⟩
    · rw [segment_template hopening hclosing htext hsplit hblocks htail] at h
      cases h
      refine .inr ⟨htext, blocks, tail, hsplit, hblocks, htail, rfl, ?_, standsIn_template hsplit⟩
      rw [hsplit]
      exact exists_pieces_append (exists_pieces_segmentsOf hblocks .zero)
        (exists_pieces_static d _ tail)
    · rw [segment_faulty hopening hclosing htext hsplit hblocks hbroken] at h
      cases h
  · rintro ⟨hopening, hclosing, ⟨rfl, rfl⟩ | ⟨htext, blocks, tail, hsplit, hblocks, htail, rfl, -⟩⟩
    · exact segment_empty hopening hclosing
    · exact segment_template hopening hclosing htext hsplit hblocks htail

-- The closing brace within quotes belongs to the expression, the blanks around it do not.
example : segment "a$\x7b f['\x7d'] \x7d" .dollar =
    .ok [.literal "a" ⟨0, 1⟩, .expression "f['\x7d']" ⟨4, 10⟩] := by
  cbv

end Interpolation
