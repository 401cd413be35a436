import Interpolation.Proofs.Layout
import Interpolation.Proofs.Rendering

/-!
# Templates in a row

Of two templates the texts can be put one behind the other.  The division of the first text goes on
in the second one as if it started there, unless static text at the end of the first gives an
opening token together with what follows.  The segments are then those of both texts, with static
text that meets at the joint made into one piece, and the whole renders as the two do.

## Main definitions

- `Segment.shift`, `joinSegments`: segments of a text further behind, and of two texts in a row.
- `joinOutcomes`: the texts of two templates in a row, or the first failure.
- `Layout.append`: two layouts in a row.

## Main results

- `Layout.segments_append`, `segment_append`: the segments of two texts in a row.
- `exists_parts_join`: pieces of two templates in a row render as the two do.
- `parseTemplate_append`: two templates in a row are one template, and render one after the other.
-/

namespace Interpolation

/-- A segment of a text that has `bytes` more in front. -/
def Segment.shift (bytes : Nat) : Segment → Segment
  | literal text span => literal text (span.shift bytes)
  | expression text span => expression text (span.shift bytes)

/-- The segments of two texts in a row.  Static text that ends the first text and static text that
starts the second are one piece. -/
def joinSegments : List Segment → List Segment → List Segment
  | [], segs => segs
  | [.literal text span], .literal text' span' :: segs =>
    .literal (text ++ text') ⟨span.start, span'.stop⟩ :: segs
  | s :: segs, segs' => s :: joinSegments segs segs'

/-- Two texts in a row, or the failure of the first, or else that of the second. -/
def joinOutcomes : Except Error String → Except Error String → Except Error String
  | .ok s, .ok s' => .ok (s ++ s')
  | .error e, _ => .error e
  | .ok _, .error e => .error e

variable {d : Delimiters} {here : Offset} {text text' : String} {segs segs' : List Segment}

/-! ## Layer A: segments in a row -/

theorem joinSegments_expression (raw : String) (span : Span) (segs segs' : List Segment) :
    joinSegments (.expression raw span :: segs) segs' =
      .expression raw span :: joinSegments segs segs' := by
  rw [joinSegments]
  simp

/-- Static text in front of an expression stays a segment of its own. -/
theorem joinSegments_staticSegments_expression (here : Offset) (static : List Char) (raw : String)
    (span : Span) (segs segs' : List Segment) :
    joinSegments (staticSegments here static ++ .expression raw span :: segs) segs' =
      staticSegments here static ++ .expression raw span :: joinSegments segs segs' := by
  unfold staticSegments
  split
  · exact joinSegments_expression raw span segs segs'
  · rw [List.singleton_append, List.singleton_append, joinSegments, joinSegments_expression]
    simp

/-- What follows a row of blocks meets only what stands behind the row. -/
theorem joinSegments_segmentsOf (here : Offset) (blocks : List Block) (segs segs' : List Segment) :
    joinSegments (segmentsOf d here blocks ++ segs) segs' =
      segmentsOf d here blocks ++ joinSegments segs segs' := by
  induction blocks generalizing here with
  | nil => rfl
  | cons b blocks ih =>
    rw [segmentsOf, Block.segments, Block.expression]
    simp only [List.append_assoc, List.cons_append, List.nil_append]
    rw [joinSegments_staticSegments_expression, ih]

/-- Static text that meets static text is one piece with it. -/
theorem joinSegments_staticSegments (here : Offset) (u v : List Char)
    (hsegs : ∀ static span others, segs ≠ .literal static span :: others) :
    joinSegments (staticSegments here u)
        (staticSegments (here + extent u) v ++ segs) =
      staticSegments here (u ++ v) ++ segs := by
  by_cases hu : u = []
  · subst hu
    rfl
  · by_cases hv : v = []
    · subst hv
      rw [List.append_nil, staticSegments, if_neg hu, staticSegments, if_pos rfl]
      -- Nothing meets the first text, since what follows starts with no static text.
      cases segs with
      | nil => rfl
      | cons s others =>
        cases s with
        | literal static span => exact absurd rfl (hsegs static span others)
        | expression raw span => rfl
    · -- Both have characters, so both have a segment, and these meet.
      have huv : u ++ v ≠ [] := by simp [hu]
      rw [staticSegments, if_neg hu, staticSegments, if_neg hv, staticSegments,
        if_neg huv, extent_append, ← Offset.add_assoc]
      simp [joinSegments]

theorem shift_between (origin start stop : Offset) :
    (Span.between start stop).shift origin.bytes = .between (origin + start) (origin + stop) := by
  simp [Span.between, Span.shift, Nat.add_comm]

/-- Static text further behind has its segments further behind. -/
theorem map_shift_staticSegments (origin here : Offset) (static : List Char) :
    (staticSegments here static).map (.shift origin.bytes) =
      staticSegments (origin + here) static := by
  unfold staticSegments
  split
  · rfl
  · have hspan := shift_between origin here (here + extent static)
    rw [← Offset.add_assoc] at hspan
    exact congrArg (fun span => [Segment.literal (String.ofList static) span]) hspan

/-- Further behind a row of blocks has the same segments, further behind. -/
theorem map_shift_segmentsOf (origin here : Offset) (blocks : List Block) :
    (segmentsOf d here blocks).map (.shift origin.bytes) =
      segmentsOf d (origin + here) blocks := by
  induction blocks generalizing here with
  | nil => rfl
  | cons b blocks ih =>
    -- The span of the expression moves with the start of its block.
    have hexpression : (b.expression d here).shift origin.bytes =
        b.expression d (origin + here) := by
      simp only [Block.expression, Segment.shift, shift_between, Block.start, Offset.add_assoc]
    rw [segmentsOf, segmentsOf, Block.segments, Block.segments, List.map_append, List.map_append,
      map_shift_staticSegments, List.map_singleton, hexpression, ih, Offset.add_assoc]

/-- Two rows of blocks have the segments of both, the second from where the first ends. -/
theorem segmentsOf_append (here : Offset) (blocks blocks' : List Block) :
    segmentsOf d here (blocks ++ blocks') =
      segmentsOf d here blocks ++ segmentsOf d (here + extent (written d blocks)) blocks' := by
  induction blocks generalizing here with
  | nil => rfl
  | cons b blocks ih =>
    rw [List.cons_append, segmentsOf, segmentsOf, ih, written_cons, extent_append,
      Offset.add_assoc, List.append_assoc]

/-! ## Layer B: layouts in a row -/

namespace Layout

/-- A layout with static text in front, which goes with the first static text of the layout. -/
def prepend (u : List Char) :
    (layout : Layout d) → Avoids d.opening.toList u layout.written → Layout d
  | ⟨[], tail, wellFormed, static⟩, h =>
    ⟨[], u ++ tail, wellFormed, by
      have hu : Avoids d.opening.toList u (tail ++ []) := by simpa [written] using h
      exact avoids_append_iff.mpr ⟨hu, static⟩⟩
  | ⟨b :: blocks, tail, wellFormed, static⟩, h =>
    ⟨{ b with before := u ++ b.before } :: blocks, tail, by
      obtain ⟨hb, hblocks⟩ := List.forall_mem_cons.mp wellFormed
      -- An opening token that starts in the new text ends before that of the block does.
      have hu : Avoids d.opening.toList u ((b.before ++ d.opening.toList) ++
          (b.body ++ d.closing.toList ++ (Interpolation.written d blocks ++ tail))) := by
        simpa [written, Block.written] using h
      have hbefore := avoids_append_iff.mpr ⟨hu.of_append_right, hb.avoids⟩
      exact List.forall_mem_cons.mpr
        ⟨⟨hbefore, hb.lead, hb.raw, hb.trail, hb.balanced, hb.noneLive⟩, hblocks⟩, static⟩

theorem written_prepend (u : List Char) (layout : Layout d)
    (h : Avoids d.opening.toList u layout.written) :
    (layout.prepend u h).written = u ++ layout.written := by
  obtain ⟨blocks, tail, wellFormed, static⟩ := layout
  cases blocks with
  | nil => rfl
  | cons b blocks => simp [prepend, written, Block.written, Block.body]

/-- Its segments: the new text meets the first static text of the layout. -/
theorem segments_prepend (u : List Char) (layout : Layout d)
    (h : Avoids d.opening.toList u layout.written) (here : Offset) :
    (layout.prepend u h).segments here =
      joinSegments (staticSegments here u) (layout.segments (here + extent u)) := by
  obtain ⟨blocks, tail, wellFormed, static⟩ := layout
  cases blocks with
  -- Only the tail is there to be met.
  | nil =>
    have hnil : ∀ static span others, ([] : List Segment) ≠ .literal static span :: others :=
      fun _ _ _ => (List.cons_ne_nil _ _).symm
    have hjoin := joinSegments_staticSegments here u tail hnil
    simp only [List.append_nil] at hjoin
    simp only [prepend, segments, segmentsOf, written_nil, extent_nil, Offset.add_zero,
      List.nil_append]
    exact hjoin.symm
  | cons b blocks =>
    have hexpression :
        ({ b with before := u ++ b.before } : Block).expression d here =
          b.expression d (here + extent u) := by
      simp only [Block.expression, Block.start, List.append_assoc, extent_append, Offset.add_assoc]
    -- The block is longer by the new text.
    have hwritten : ({ b with before := u ++ b.before } : Block).written d = u ++ b.written d := by
      simp [Block.written, Block.body]
    simp only [prepend, segments, segmentsOf, Block.segments, hexpression, hwritten, written_cons,
      extent_append, List.append_assoc, Offset.add_assoc]
    rw [joinSegments_staticSegments]
    simp [Block.expression]

/-- Two layouts in a row, where static text at the end of the first one gives no opening token. -/
def append (layout layout' : Layout d)
    (h : Avoids d.opening.toList layout.tail layout'.written) : Layout d where
  blocks := layout.blocks ++ (layout'.prepend layout.tail h).blocks
  tail := (layout'.prepend layout.tail h).tail
  wellFormed := List.forall_mem_append.mpr
    ⟨layout.wellFormed, (layout'.prepend layout.tail h).wellFormed⟩
  static := (layout'.prepend layout.tail h).static

/-- The text of two layouts in a row. -/
theorem written_append (layout layout' : Layout d)
    (h : Avoids d.opening.toList layout.tail layout'.written) :
    (layout.append layout' h).written = layout.written ++ layout'.written := by
  have hrest : Interpolation.written d (layout'.prepend layout.tail h).blocks ++
      (layout'.prepend layout.tail h).tail = layout.tail ++ layout'.written :=
    written_prepend layout.tail layout' h
  show Interpolation.written d (layout.blocks ++ (layout'.prepend layout.tail h).blocks) ++
    (layout'.prepend layout.tail h).tail = _
  rw [Interpolation.written_append, List.append_assoc, hrest, ← List.append_assoc]
  rfl

/-- The segments of two layouts in a row: the tail of the first meets what the second starts with.
-/
theorem segments_append (layout layout' : Layout d)
    (h : Avoids d.opening.toList layout.tail layout'.written) (here : Offset) :
    (layout.append layout' h).segments here =
      joinSegments (layout.segments here) (layout'.segments (here + extent layout.written)) := by
  have hprepend := segments_prepend layout.tail layout' h
    (here + extent (Interpolation.written d layout.blocks))
  rw [segments] at hprepend
  rw [segments, append, segmentsOf_append, Interpolation.written_append, extent_append,
    List.append_assoc, ← Offset.add_assoc, hprepend, segments.eq_def layout,
    joinSegments_segmentsOf, written.eq_def layout, extent_append, Offset.add_assoc]

theorem map_shift_segments (layout : Layout d) (origin here : Offset) :
    (layout.segments here).map (.shift origin.bytes) = layout.segments (origin + here) := by
  rw [segments, segments, List.map_append, map_shift_segmentsOf, map_shift_staticSegments,
    Offset.add_assoc]

end Layout

/-- The segments of a text that are not vacant are those of a layout. -/
theorem exists_layout_of_segment (h : segment text d = .ok segs) :
    ∃ layout : Layout d, text.toList = layout.written ∧
      segs.filter (!·.isVacant) = layout.segments .zero ∧
      (layout.tail ≠ [] →
        ∃ span, segs.getLast? = some (.literal (String.ofList layout.tail) span)) := by
  rcases exists_layout h with ⟨rfl, rfl⟩ | ⟨-, layout, htext, rfl⟩
  · exact ⟨.empty d, rfl, rfl, fun htail => absurd rfl htail⟩
  · exact ⟨layout, htext, layout.filter_segments .zero,
      fun htail => layout.getLast?_segments htail .zero⟩

/-- The segments of two texts in a row. -/
theorem segment_append (hne : text ≠ "" ∨ text' ≠ "") (h : segment text d = .ok segs)
    (h' : segment text' d = .ok segs')
    (hjoint : ∀ static span, segs.getLast? = some (.literal static span) →
      Avoids d.opening.toList static.toList text'.toList) :
    segment (text ++ text') d = .ok (joinSegments (segs.filter (!·.isVacant))
      ((segs'.filter (!·.isVacant)).map (.shift text.utf8ByteSize))) := by
  obtain ⟨hopening, hclosing⟩ := tokens_of_segment h
  obtain ⟨layout, htext, hsegs, hlast⟩ := exists_layout_of_segment h
  obtain ⟨layout', htext', hsegs', -⟩ := exists_layout_of_segment h'
  -- The tail of the first layout is its last segment, or there is none.
  have havoids : Avoids d.opening.toList layout.tail layout'.written := by
    by_cases htail : layout.tail = []
    · rw [htail]
      exact .nil _ _
    · obtain ⟨span, hspan⟩ := hlast htail
      have hstatic := hjoint _ span hspan
      rwa [String.toList_ofList, htext'] at hstatic
  have hwritten : (text ++ text').toList = (layout.append layout' havoids).written := by
    rw [String.toList_append, htext, htext', layout.written_append]
  -- Both together are not empty.
  have hsome : text ++ text' ≠ "" := by
    intro hnil
    rw [String.append_eq_empty_iff] at hnil
    rcases hne with hne | hne
    · exact hne hnil.1
    · exact hne hnil.2
  rw [Layout.segment_eq _ hopening hclosing hwritten hsome, Layout.segments_append, hsegs, hsegs',
    ← bytes_extent_toList, htext, Layout.map_shift_segments, Offset.zero_add, Offset.add_zero]

/-! ## Layer C: pieces in a row -/

/-- Of three outcomes in a row the first failure decides, however they are taken together. -/
theorem joinOutcomes_assoc (x y z : Except Error String) :
    joinOutcomes (joinOutcomes x y) z = joinOutcomes x (joinOutcomes y z) := by
  cases x with
  | error e => rfl
  | ok s =>
    cases y with
    | error e => rfl
    | ok s' =>
      cases z with
      | error e => rfl
      | ok s'' => exact congrArg Except.ok String.append_assoc

theorem joinOutcomes_empty (x : Except Error String) : joinOutcomes (.ok "") x = x := by
  cases x with
  | error e => rfl
  | ok s => exact congrArg Except.ok String.empty_append

variable {ε : Type} {parser : SubParser ε} {parts parts' : List (Part ε)}

theorem PartOf.shift {s : Segment} {part : Part ε} (h : PartOf parser d s part) (bytes : Nat) :
    PartOf parser d (s.shift bytes) part := by
  cases h with
  | literal static span => exact .literal static _
  | expression span hparse => exact .expression _ hparse

theorem parseTemplate_of_parts (hsegs : segment text d = .ok segs)
    (hparts : List.Forall₂ (PartOf parser d) segs parts) :
    parseTemplate parser text d = .ok (.ofParts text parts) := by
  obtain ⟨hopening, hclosing⟩ := tokens_of_segment hsegs
  rw [(parseTemplate_of_segment parser hopening hclosing hsegs).2,
    mapM_eq_ok_iff.mpr (hparts.imp fun _ _ => ofSegment_eq_ok_iff.mpr)]
  rfl

section Pieces

variable [Evaluable ε]

theorem joinTexts_cons_eq (scope : Scope) (part : Part ε) (parts : List (Part ε)) :
    Composite.joinTexts scope (part :: parts) =
      joinOutcomes (renderText part scope) (Composite.joinTexts scope parts) := by
  rw [joinTexts_cons]
  cases renderText part scope with
  | error e => rfl
  | ok s => cases Composite.joinTexts scope parts <;> rfl

theorem renderText_literal (static : String) (scope : Scope) :
    renderText (Part.literal static : Part ε) scope = .ok static :=
  rfl

/-- Without vacant segments a template renders as with them. -/
theorem exists_parts_filter (h : List.Forall₂ (PartOf parser d) segs parts) :
    ∃ kept, List.Forall₂ (PartOf parser d) (segs.filter (!·.isVacant)) kept ∧
      ∀ scope, Composite.joinTexts scope kept = Composite.joinTexts scope parts := by
  induction h with
  | nil => exact ⟨[], .nil, fun _ => rfl⟩
  | @cons s part segs parts hfirst _ ih =>
    obtain ⟨kept, hkept, htexts⟩ := ih
    by_cases hvacant : s.isVacant = true
    · -- A vacant segment is dropped, which adds nothing to the text.
      rw [List.filter_cons_of_neg (by simp [hvacant])]
      refine ⟨kept, hkept, fun scope => ?_⟩
      cases hfirst with
      | literal static span =>
        have hempty : static = "" := of_decide_eq_true hvacant
        subst hempty
        rw [joinTexts_cons_eq, renderText_literal, joinOutcomes_empty, htexts]
      | expression => cases hvacant
    · rw [List.filter_cons_of_pos (by simp [hvacant])]
      refine ⟨part :: kept, .cons hfirst hkept, fun scope => ?_⟩
      rw [joinTexts_cons_eq, joinTexts_cons_eq, htexts]

/-- The pieces of two templates in a row render as the two do. -/
theorem exists_parts_join (h : List.Forall₂ (PartOf parser d) segs parts)
    (h' : List.Forall₂ (PartOf parser d) segs' parts') :
    ∃ joined, List.Forall₂ (PartOf parser d) (joinSegments segs segs') joined ∧
      ∀ scope, Composite.joinTexts scope joined =
        joinOutcomes (Composite.joinTexts scope parts) (Composite.joinTexts scope parts') := by
  fun_induction joinSegments segs segs' generalizing parts parts' with
  -- Nothing is in front.
  | case1 segs' =>
    cases h
    exact ⟨parts', h', fun scope => (joinOutcomes_empty _).symm⟩
  | case2 static span static' span' segs' =>
    -- Static text meets static text: the two pieces become one with both texts.
    cases h with
    | cons hfirst hnil =>
      cases hnil
      cases hfirst
      cases h' with
      | @cons _ _ _ others hfirst' hothers =>
        cases hfirst'
        refine ⟨.literal (static ++ static') :: others, .cons (.literal _ _) hothers, ?_⟩
        intro scope
        rw [joinTexts_cons_eq, joinTexts_singleton, joinTexts_cons_eq, ← joinOutcomes_assoc]
        simp only [renderText_literal, joinOutcomes]
  -- The first piece stays as it is.
  | case3 s segs segs' hmeet ih =>
    cases h with
    | @cons _ part _ others hfirst hothers =>
      obtain ⟨joined, hjoined, htexts⟩ := ih hothers h'
      refine ⟨part :: joined, .cons hfirst hjoined, fun scope => ?_⟩
      rw [joinTexts_cons_eq, joinTexts_cons_eq, htexts, joinOutcomes_assoc]

/-! ## Main result -/

/-- **Templates in a row render one after the other.**  Two texts that are read, not both empty, are
read as one text, unless static text at the end of the first one gives an opening token with what
follows.  The segments are those of the first text and, further behind, those of the second; static
text at the joint is one piece, and an empty text adds none. -/
theorem parseTemplate_append {t t' : Template ε} (hne : text ≠ "" ∨ text' ≠ "")
    (h : parseTemplate parser text d = .ok t) (h' : parseTemplate parser text' d = .ok t')
    (hjoint : ∀ segs static span, segment text d = .ok segs →
      segs.getLast? = some (.literal static span) →
        Avoids d.opening.toList static.toList text'.toList) :
    ∃ segs segs' joined, segment text d = .ok segs ∧ segment text' d = .ok segs' ∧
      parseTemplate parser (text ++ text') d = .ok joined ∧
      segment (text ++ text') d = .ok (joinSegments (segs.filter (!·.isVacant))
        ((segs'.filter (!·.isVacant)).map (.shift text.utf8ByteSize))) ∧
      ∀ scope, renderText joined scope =
        joinOutcomes (renderText t scope) (renderText t' scope) := by
  obtain ⟨segs, parts, -, hsegs, hparts, rfl⟩ := exists_parts_of_parseTemplate h
  obtain ⟨segs', parts', -, hsegs', hparts', rfl⟩ := exists_parts_of_parseTemplate h'
  have hsegments := segment_append hne hsegs hsegs' fun static span => hjoint segs static span hsegs
  obtain ⟨kept, hkept, htexts⟩ := exists_parts_filter hparts
  obtain ⟨kept', hkept', htexts'⟩ := exists_parts_filter hparts'
  -- The parts of the second text do not know where they stand.
  have hshifted : List.Forall₂ (PartOf parser d)
      ((segs'.filter (!·.isVacant)).map (.shift text.utf8ByteSize)) kept' :=
    List.forall₂_map_left_iff.mpr (hkept'.imp fun _ _ hpart => hpart.shift _)
  obtain ⟨joined, hjoined, hrender⟩ := exists_parts_join hkept hshifted
  refine ⟨segs, segs', .ofParts (text ++ text') joined, hsegs, hsegs',
    parseTemplate_of_parts hsegments hjoined, hsegments, ?_⟩
  intro scope
  rw [renderText_ofParts, renderText_ofParts, renderText_ofParts, hrender, htexts, htexts']

end Pieces

/-- The dollar that ends the first text and the letter that starts the second are one piece.  The
dollar takes no part in a token, as it would in front of a brace. -/
theorem parseTemplate_append_dollar :
    ∃ t t' joined : Template Expression,
      parseTemplate Expression.parse "é$\x7bx\x7d$" .dollar = .ok t ∧
      parseTemplate Expression.parse "b$\x7b y \x7d" .dollar = .ok t' ∧
      parseTemplate Expression.parse ("é$\x7bx\x7d$" ++ "b$\x7b y \x7d") .dollar = .ok joined ∧
      segment ("é$\x7bx\x7d$" ++ "b$\x7b y \x7d") .dollar =
        .ok [.literal "é" ⟨0, 2⟩, .expression "x" ⟨4, 5⟩, .literal "$b" ⟨6, 8⟩,
          .expression "y" ⟨11, 12⟩] ∧
      ∀ scope, renderText joined scope =
        joinOutcomes (renderText t scope) (renderText t' scope) := by
  have hparse : parseTemplate Expression.parse "é$\x7bx\x7d$" .dollar =
      .ok (.composite ⟨"é$\x7bx\x7d$",
        [.literal "é", .expression ⟨"x", .path ⟨"x", []⟩⟩, .literal "$"]⟩) := by
    cbv
  have hparse' : parseTemplate Expression.parse "b$\x7b y \x7d" .dollar =
      .ok (.composite ⟨"b$\x7b y \x7d",
        [.literal "b", .expression ⟨"y", .path ⟨"y", []⟩⟩]⟩) := by
    cbv
  have hfirst : segment "é$\x7bx\x7d$" .dollar =
      .ok [.literal "é" ⟨0, 2⟩, .expression "x" ⟨4, 5⟩, .literal "$" ⟨6, 7⟩] := by
    cbv
  have hsecond : segment "b$\x7b y \x7d" .dollar =
      .ok [.literal "b" ⟨0, 1⟩, .expression "y" ⟨4, 5⟩] := by
    cbv
  have hjoint : ∀ segs static span, segment "é$\x7bx\x7d$" .dollar = .ok segs →
      segs.getLast? = some (.literal static span) →
        Avoids Delimiters.dollar.opening.toList static.toList "b$\x7b y \x7d".toList := by
    intro segs static span hsegs hlast
    rw [hfirst] at hsegs
    cases hsegs
    cases hlast
    exact avoids_cons_iff.mpr ⟨by decide, .nil _ _⟩
  obtain ⟨segs, segs', joined, hsegs, hsegs', hjoined, hsegments, hrender⟩ :=
    parseTemplate_append (.inl (by decide)) hparse hparse' hjoint
  rw [hfirst] at hsegs
  rw [hsecond] at hsegs'
  cases hsegs
  cases hsegs'
  exact ⟨_, _, joined, hparse, hparse', hjoined, hsegments, hrender⟩

end Interpolation
