import Interpolation.Proofs.Division
import Interpolation.Proofs.MachineWord
import Interpolation.Template.Parser
import Mathlib.Data.List.Forall2

/-!
# Templates against their segments

The reader of templates and the division into segments are the same walk over a text, with two
builders.  Hence a template has the parts that the parser makes of the segments, and it fails at
what comes first in the text: an expression that the parser refuses, or a fault of the text behind
expressions that it all accepts.

## Main definitions

- `PartOf`, `Assembled`, `ReadAs`: parts and templates, as they come from segments.
- `Refusal`: the first expression of a text that the parser refuses.
- `ReadingFault`: the first failure in the order of the text.

## Main results

- `mapM_parts_eq_error_iff`: the first expression that the parser refuses decides.
- `parseTemplate_eq_ok_iff`, `parseTemplate_eq_error_iff`: every outcome of reading a template.
-/

namespace Interpolation

variable {ε : Type} {parser : SubParser ε} {d : Delimiters} {text : String} {here : Offset}
  {blocks : List Block} {rest : List Char}

/-- The part that the parser makes of a segment. -/
inductive PartOf (parser : SubParser ε) (d : Delimiters) : Segment → Part ε → Prop where
  /-- Static text is taken over. -/
  | literal (static : String) (span : Span) :
      PartOf parser d (.literal static span) (.literal static)
  /-- An expression is given to the parser. -/
  | expression {raw : String} {e : ε} (span : Span) :
      parser raw d = .ok e → PartOf parser d (.expression raw span) (.expression e)

/-- The template of a list of parts: one segment stands for itself. -/
inductive Assembled (source : String) : List Segment → List (Part ε) → Template ε → Prop where
  /-- A single piece of static text. -/
  | literal (static : String) (span : Span) :
      Assembled source [.literal static span] [.literal static] (.literal static)
  /-- A single expression. -/
  | expression (raw : String) (span : Span) (e : ε) :
      Assembled source [.expression raw span] [.expression e] (.expression e)
  /-- More than one piece, with the text they come from. -/
  | composite {segs : List Segment} {parts : List (Part ε)} :
      1 < segs.length → Assembled source segs parts (.composite ⟨source, parts⟩)

/-- The parser accepts the expression of each block. -/
def AcceptsAll (parser : SubParser ε) (d : Delimiters) (blocks : List Block) : Prop :=
  ∀ b ∈ blocks, ∃ e, parser (String.ofList b.raw) d = .ok e

/-- The errors of the parser lie in the text of the expression, in whose terms they are told. -/
def SubParser.TellsWithin (parser : SubParser ε) : Prop :=
  ∀ raw d e, parser raw d = .error e → e.Within raw

/-- The parser refuses an expression of a text with an error, and accepts all expressions in front
of it.  The offset is where the expression starts. -/
inductive Refusal (parser : SubParser ε) (text : String) (d : Delimiters) : Offset → Error → Prop
    where
  /-- All up to the expression and its closing token are well-formed blocks. -/
  | first {blocks : List Block} {b : Block} {rest : List Char} {e : Error} :
      text.toList = written d (blocks ++ [b]) ++ rest →
      (∀ b' ∈ blocks ++ [b], b'.WellFormed d) → AcceptsAll parser d blocks →
      parser (String.ofList b.raw) d = .error e →
      Refusal parser text d (b.start d (extent (written d blocks))) e

/-- The first failure in the order of a text, with a way of adding offsets. -/
inductive ReadingFault (add : Addition) (parser : SubParser ε) (text : String) (d : Delimiters) :
    Error → Prop where
  /-- The parser refuses an expression and accepts all in front of it.  Its error is moved to where
  the expression stands. -/
  | expression {origin : Offset} {e e' : Error} :
      Refusal parser text d origin e → e.Moved add origin text e' →
      ReadingFault add parser text d e'
  /-- The text has a fault where the next expression should be read, and the parser accepts all in
  front of it.  The division into segments reports the same fault. -/
  | division {blocks : List Block} {rest : List Char} {e : Error} :
      text.toList = written d blocks ++ rest →
      (∀ b ∈ blocks, b.WellFormed d) → AcceptsAll parser d blocks →
      nextExpression d (extent (written d blocks)) rest = .broken e →
      segment text d = .error e →
      ReadingFault add parser text d ⟨e.kind, e.span, e.help, some text⟩

/-! ## Layer A: parts of segments -/

theorem bind_eq_ok_iff {α β : Type} {x : Except Error α} {f : α → Except Error β} {b : β} :
    (x >>= f) = .ok b ↔ ∃ a, x = .ok a ∧ f a = .ok b := by
  cases x <;> simp [bind, Except.bind]

theorem mapM_eq_ok_iff {α β : Type} {f : α → Except Error β} {xs : List α} {ys : List β} :
    xs.mapM f = .ok ys ↔ List.Forall₂ (fun x y => f x = .ok y) xs ys := by
  induction xs generalizing ys with
  | nil =>
    rw [List.mapM_nil, List.forall₂_nil_left_iff]
    exact ⟨fun h => (Except.ok.inj h).symm, fun h => congrArg Except.ok h.symm⟩
  | cons x xs ih =>
    rw [List.mapM_cons, List.forall₂_cons_left_iff]
    -- The first element and the others, each with its result.
    simp only [bind_eq_ok_iff, ih]
    constructor
    · intro h
      obtain ⟨y, hy, ys', hys, hcons⟩ := h
      exact ⟨y, ys', hy, hys, (Except.ok.inj hcons).symm⟩
    · intro h
      obtain ⟨y, ys', hy, hys, hcons⟩ := h
      exact ⟨y, hy, ys', hys, congrArg Except.ok hcons.symm⟩

/-- The builder of templates makes the part of a segment. -/
theorem ofSegment_eq_ok_iff {s : Segment} {part : Part ε} :
    (Builder.parts parser d text).ofSegment s = .ok part ↔ PartOf parser d s part := by
  cases s with
  | literal static span =>
    simp only [Builder.ofSegment, Builder.parts, Except.ok.injEq]
    constructor
    · intro h
      subst h
      exact .literal static span
    · intro h
      cases h
      rfl
  | expression raw span =>
    simp only [Builder.ofSegment, Builder.parts]
    -- The part is what the parser says of the expression.
    cases hraw : parser raw d with
    | error e =>
      constructor
      · intro h
        cases h
      · intro h
        cases h with
        | expression _ hok => simp [hraw] at hok
    | ok e =>
      simp only [Except.ok.injEq]
      constructor
      · intro h
        subst h
        exact .expression span hraw
      · intro h
        cases h with
        | expression _ hok => simpa [hraw] using hok

theorem ofParts_eq_iff {segs : List Segment} {parts : List (Part ε)} {t : Template ε}
    (hparts : List.Forall₂ (PartOf parser d) segs parts) (hsegs : segs ≠ []) :
    Template.ofParts text parts = t ↔ Assembled text segs parts t := by
  cases hparts with
  | nil => exact absurd rfl hsegs
  | cons hfirst hrest =>
    -- One part stands for itself, and more are put in a row.
    cases hrest with
    | nil =>
      cases hfirst with
      | literal static span =>
        constructor
        · intro h
          subst h
          exact .literal static span
        · intro h
          cases h with
          | literal => rfl
          | composite hlen => simp at hlen
      | expression span hok =>
        constructor
        · intro h
          subst h
          exact .expression _ span _
        · intro h
          cases h with
          | expression => rfl
          | composite hlen => simp at hlen
    | @cons _ p' _ ps hsecond hrest =>
      have hcomposite : ∀ p, Template.ofParts text (p :: p' :: ps) =
          .composite ⟨text, p :: p' :: ps⟩ := fun p => by cases p <;> rfl
      rw [hcomposite]
      constructor
      · intro h
        subst h
        exact .composite (Nat.succ_lt_succ (Nat.succ_pos _))
      · intro h
        cases h
        rfl

/-- Parts are of the kinds of their segments. -/
theorem countP_isExpression {segs : List Segment} {parts : List (Part ε)}
    (hparts : List.Forall₂ (PartOf parser d) segs parts) :
    parts.countP Part.isExpression = segs.countP Segment.isExpression := by
  induction hparts with
  | nil => rfl
  | cons hfirst _ ih =>
    rw [List.countP_cons, List.countP_cons, ih]
    cases hfirst <;> rfl

/-- The line about a template counts its segments. -/
theorem Assembled.summary {segs : List Segment} {parts : List (Part ε)} {t : Template ε}
    (h : Assembled text segs parts t) (hparts : List.Forall₂ (PartOf parser d) segs parts) :
    t.summary = "ok: " ++ toString (segs.countP fun s => !s.isExpression) ++ " literal(s), " ++
      toString (segs.countP Segment.isExpression) ++ " expression(s)" := by
  cases h with
  | literal => rfl
  | expression => rfl
  | @composite segs parts hlen =>
    have hchildren : (parts.map Child.part).countP Child.isExpression =
        segs.countP Segment.isExpression := by
      rw [List.countP_map, ← countP_isExpression hparts]
      rfl
    -- What is no expression is static text.
    have hliterals : parts.length - segs.countP Segment.isExpression =
        segs.countP fun s => !s.isExpression := by
      have hsum := List.length_eq_countP_add_countP Segment.isExpression (l := segs)
      have hlength := hparts.length_eq
      simp only [Bool.not_eq_true, Bool.decide_eq_false] at hsum
      omega
    simp only [Template.summary, Template.children, List.length_map, hchildren, hliterals]

/-! ## Layer B: the first expression that is refused -/

/-- A block has the pieces of its static text and of its expression. -/
theorem mapM_parts_block (b : Block) (here : Offset) :
    (b.segments d here).mapM (Builder.parts parser d text).ofSegment =
      match parser (String.ofList b.raw) d with
      | .ok e => .ok ((Builder.parts parser d text).literalAt here b.before ++ [.expression e])
      | .error e => .error (e.rebase ⟨(b.start d here).bytes,
          charOffset text (b.start d here).bytes⟩) := by
  have hpiece : (Builder.parts parser d text).ofSegment (b.expression d here) =
      match parser (String.ofList b.raw) d with
      | .ok e => .ok (.expression e)
      | .error e => .error (e.rebase ⟨(b.start d here).bytes,
          charOffset text (b.start d here).bytes⟩) := rfl
  rw [mapM_block, hpiece]
  cases parser (String.ofList b.raw) d <;> rfl

theorem acceptsAll_nil : AcceptsAll parser d [] := by
  simp [AcceptsAll]

theorem acceptsAll_cons_iff {b : Block} :
    AcceptsAll parser d (b :: blocks) ↔
      (∃ e, parser (String.ofList b.raw) d = .ok e) ∧ AcceptsAll parser d blocks :=
  List.forall_mem_cons

theorem mapM_cons_of_refused {b : Block} {e : Error}
    (hrefused : parser (String.ofList b.raw) d = .error e) :
    (segmentsOf d here (b :: blocks)).mapM (Builder.parts parser d text).ofSegment =
      .error (e.rebase ⟨(b.start d here).bytes, charOffset text (b.start d here).bytes⟩) := by
  rw [segmentsOf, List.mapM_append, mapM_parts_block, hrefused]
  rfl

/-- Where the first expression is accepted, what is refused stands behind it. -/
theorem mapM_cons_of_accepted {b : Block} {x : ε} {e : Error}
    (haccepted : parser (String.ofList b.raw) d = .ok x) :
    (segmentsOf d here (b :: blocks)).mapM (Builder.parts parser d text).ofSegment = .error e ↔
      (segmentsOf d (here + extent (b.written d)) blocks).mapM
        (Builder.parts parser d text).ofSegment = .error e := by
  rw [segmentsOf, List.mapM_append, mapM_parts_block, haccepted]
  cases (segmentsOf d (here + extent (b.written d)) blocks).mapM
    (Builder.parts parser d text).ofSegment <;> simp [bind, Except.bind, pure, Except.pure]

/-- Of the expressions of a row of blocks, the first that the parser refuses decides. -/
theorem mapM_parts_eq_error_iff {e : Error} :
    (segmentsOf d here blocks).mapM (Builder.parts parser d text).ofSegment = .error e ↔
      ∃ accepted b others e', blocks = accepted ++ b :: others ∧ AcceptsAll parser d accepted ∧
        parser (String.ofList b.raw) d = .error e' ∧
        e = e'.rebase ⟨(b.start d (here + extent (written d accepted))).bytes,
          charOffset text (b.start d (here + extent (written d accepted))).bytes⟩ := by
  constructor
  · intro h
    -- The first expression is refused, or the first refused one is among the others.
    induction blocks generalizing here with
    | nil => simp [segmentsOf, pure, Except.pure] at h
    | cons b blocks ih =>
      cases hraw : parser (String.ofList b.raw) d with
      | error e' =>
        rw [mapM_cons_of_refused hraw] at h
        cases h
        exact ⟨[], b, blocks, e', rfl, acceptsAll_nil, hraw, by simp⟩
      | ok x =>
        rw [mapM_cons_of_accepted hraw] at h
        obtain ⟨accepted, b', others, e', rfl, haccepted, hrefused, rfl⟩ := ih h
        have hboth := acceptsAll_cons_iff.mpr ⟨⟨x, hraw⟩, haccepted⟩
        refine ⟨b :: accepted, b', others, e', rfl, hboth, hrefused, ?_⟩
        rw [written_cons, extent_append, Offset.add_assoc]
  · intro h
    obtain ⟨accepted, b, others, e', rfl, haccepted, hrefused, rfl⟩ := h
    -- The accepted expressions are passed over, one block after another.
    induction accepted generalizing here with
    | nil =>
      rw [List.nil_append, mapM_cons_of_refused hrefused, written_nil, extent_nil, Offset.add_zero]
    | cons a accepted ih =>
      obtain ⟨⟨x, hx⟩, hrest⟩ := acceptsAll_cons_iff.mp haccepted
      rw [List.cons_append, mapM_cons_of_accepted hx, ih hrest, written_cons, extent_append,
        Offset.add_assoc]

/-- The parser accepts all expressions of a row of blocks if the parts of the row can be made. -/
theorem acceptsAll_iff :
    AcceptsAll parser d blocks ↔
      ∃ parts, (segmentsOf d here blocks).mapM (Builder.parts parser d text).ofSegment =
        .ok parts := by
  constructor
  · intro h
    cases hparts : (segmentsOf d here blocks).mapM (Builder.parts parser d text).ofSegment with
    | ok parts => exact ⟨parts, rfl⟩
    -- A failure would be that of an expression which is accepted.
    | error e =>
      obtain ⟨accepted, b, others, e', rfl, -, hrefused, -⟩ := mapM_parts_eq_error_iff.mp hparts
      obtain ⟨x, hx⟩ := h b (List.mem_append_right _ List.mem_cons_self)
      rw [hrefused] at hx
      cases hx
  · intro h
    induction blocks generalizing here with
    | nil => exact acceptsAll_nil
    | cons b blocks ih =>
      obtain ⟨parts, hparts⟩ := h
      rw [segmentsOf, List.mapM_append, mapM_parts_block, bind_eq_ok_iff] at hparts
      obtain ⟨first, hfirst, hrest⟩ := hparts
      obtain ⟨others, hothers, -⟩ := bind_eq_ok_iff.mp hrest
      apply acceptsAll_cons_iff.mpr
      refine ⟨?_, ih ⟨others, hothers⟩⟩
      cases hraw : parser (String.ofList b.raw) d with
      | ok e => exact ⟨e, rfl⟩
      | error e => simp [hraw] at hfirst

/-- Where an expression stands, counted along the text. -/
theorem charOffset_start {b : Block}
    (hsplit : text.toList = written d blocks ++ (b.written d ++ rest)) :
    (⟨(b.start d (extent (written d blocks))).bytes,
      charOffset text (b.start d (extent (written d blocks))).bytes⟩ : Offset) =
      b.start d (extent (written d blocks)) := by
  -- In front of the expression stand the blocks, static text, a token and blanks.
  have hfront : text.toList =
      (written d blocks ++ (b.before ++ (d.opening.toList ++ b.lead))) ++
        (b.raw ++ (b.trail ++ (d.closing.toList ++ rest))) := by
    simp [hsplit, Block.written, Block.body]
  rw [b.start_extent, charOffset_eq hfront]
  exact Offset.ext rfl (chars_extent _).symm

theorem refusal_cases (parser : SubParser ε) (text : String) (d : Delimiters) :
    (d.check = .ok () ∧ ∃ origin e, Refusal parser text d origin e) ∨
      (d.check = .ok () → ∀ origin e, ¬ Refusal parser text d origin e) := by
  by_cases h : d.check = .ok () ∧ ∃ origin e, Refusal parser text d origin e
  · exact .inl h
  · exact .inr fun hcheck origin e hrefusal => h ⟨hcheck, origin, e, hrefusal⟩

/-- An expression that is refused stands where its error is moved to. -/
theorem Refusal.exists_front {origin : Offset} {e : Error} (h : Refusal parser text d origin e) :
    ∃ front raw behind, text.toList = front ++ (raw ++ behind) ∧ origin = extent front ∧
      parser (String.ofList raw) d = .error e := by
  cases h with
  | @first blocks b rest e hsplit _ _ hrefused =>
    refine ⟨written d blocks ++ (b.before ++ (d.opening.toList ++ b.lead)), b.raw,
      b.trail ++ (d.closing.toList ++ rest), ?_, b.start_extent d _, hrefused⟩
    simp [hsplit, written_append, Block.written, Block.body]

/-- Words hold all sums for an error that lies in the expression, if they can count the text. -/
theorem Refusal.not_overflows {origin : Offset} {e : Error} (htells : parser.TellsWithin)
    (htext : text.utf8ByteSize < wordSize) (h : Refusal parser text d origin e) :
    ¬ e.Overflows origin := by
  obtain ⟨front, raw, behind, hsplit, rfl, hrefused⟩ := h.exists_front
  -- The expression ends in the text, and a text has no more characters than bytes.
  have hchars := length_le_bytes_extent text.toList
  rw [bytes_extent_toList, hsplit, List.length_append, List.length_append] at hchars
  rw [← List.append_assoc] at hsplit
  have hbytes := bytes_extent_le_append (front ++ raw) behind
  rw [← hsplit, bytes_extent_toList, extent_append, Offset.bytes_add] at hbytes
  apply (htells _ _ _ hrefused).not_overflows
  · rw [← bytes_extent_toList, String.toList_ofList]
    omega
  · rw [chars_extent, String.length_ofList]
    omega

/-! ## Layer C: templates -/

/-- What becomes of the outcome of a division: a fault is given the text as its source, and parts
are put together to a template. -/
def attachOrAssemble (text : String) : Except Error (List (Part ε)) → Except Error (Template ε)
  | .error e => .error (e.withSource text)
  | .ok parts => .ok (.ofParts text parts)

theorem parseTemplate_eq_divide (hopening : d.opening ≠ "") (hclosing : d.closing ≠ "")
    (htext : text ≠ "") :
    parseTemplate parser text d =
      attachOrAssemble text (divide d hopening (.parts parser d text) .zero text.toList) := by
  rw [parseTemplate, Delimiters.guarded_eq hopening hclosing, if_neg htext]
  rfl

/-- A text that has segments is read as the template of their parts. -/
theorem parseTemplate_of_segment (parser : SubParser ε) {segs : List Segment}
    (hopening : d.opening ≠ "") (hclosing : d.closing ≠ "") (h : segment text d = .ok segs) :
    segs ≠ [] ∧ parseTemplate parser text d =
      attachOrAssemble text (segs.mapM (Builder.parts parser d text).ofSegment) := by
  -- The empty text is one empty piece, also for templates.
  rcases text_cases hopening text with rfl |
    ⟨htext, blocks, tail, hsplit, hblocks, htail | ⟨e, hbroken⟩⟩
  · rw [segment_empty hopening hclosing] at h
    cases h
    rw [parseTemplate, Delimiters.guarded_eq hopening hclosing, if_pos rfl]
    exact ⟨List.cons_ne_nil _ _, rfl⟩
  · rw [segment_template hopening hclosing htext hsplit hblocks htail] at h
    cases h
    refine ⟨?_, ?_⟩
    · apply segments_ne_nil
      rw [← hsplit]
      exact fun hnil => htext (String.toList_eq_nil_iff.mp hnil)
    · rw [parseTemplate_eq_divide hopening hclosing htext, hsplit, divide_template hblocks htail,
        Offset.zero_add]
  · rw [segment_faulty hopening hclosing htext hsplit hblocks hbroken] at h
    cases h

/-- The expressions of a row of blocks are read before what is behind the row. -/
theorem parseTemplate_of_blocks (hopening : d.opening ≠ "") (hclosing : d.closing ≠ "")
    (htext : text ≠ "") (hsplit : text.toList = written d blocks ++ rest)
    (hblocks : ∀ b ∈ blocks, b.WellFormed d) :
    parseTemplate parser text d =
      attachOrAssemble text (((segmentsOf d .zero blocks).mapM
        (Builder.parts parser d text).ofSegment).bind fun parts =>
          (divide d hopening (.parts parser d text) (extent (written d blocks)) rest).map
            (parts ++ ·)) := by
  rw [parseTemplate_eq_divide hopening hclosing htext, hsplit, divide_blocks hblocks,
    Offset.zero_add]

/-- A text with a block is not empty. -/
theorem ne_empty_of_block {b : Block} (hopening : d.opening ≠ "")
    (h : text.toList = written d (blocks ++ [b]) ++ rest) : text ≠ "" := by
  rintro rfl
  have hpos := b.length_pos hopening
  have hlen := congrArg List.length h
  simp only [written_append, written_cons, List.length_append, String.toList_empty,
    List.length_nil] at hlen
  omega

/-- The first expression that is refused is the outcome. -/
theorem Refusal.parseTemplate_eq {origin : Offset} {e : Error} (hopening : d.opening ≠ "")
    (hclosing : d.closing ≠ "") (h : Refusal parser text d origin e) :
    parseTemplate parser text d = .error ((e.rebase origin).withSource text) := by
  cases h with
  | @first blocks b rest e hsplit hblocks haccepted hrefused =>
    have htext : text ≠ "" := ne_empty_of_block hopening hsplit
    -- The parts of the row fail with the moved error, before what is behind the row is looked at.
    have hparts : (segmentsOf d .zero (blocks ++ [b])).mapM
        (Builder.parts parser d text).ofSegment = .error _ :=
      mapM_parts_eq_error_iff.mpr ⟨blocks, b, [], e, rfl, haccepted, hrefused, rfl⟩
    have hfront : text.toList = written d blocks ++ (b.written d ++ rest) := by
      simp [hsplit, written_append]
    rw [parseTemplate_of_blocks hopening hclosing htext hsplit hblocks, hparts, Offset.zero_add,
      charOffset_start hfront]
    rfl

/-- The first failure in the order of the text is the outcome. -/
theorem ReadingFault.parseTemplate_eq {e : Error} (hopening : d.opening ≠ "")
    (hclosing : d.closing ≠ "") (h : ReadingFault .exact parser text d e) :
    parseTemplate parser text d = .error e := by
  cases h with
  | expression hrefusal hmoved =>
    rw [Error.moved_exact_iff.mp hmoved]
    exact hrefusal.parseTemplate_eq hopening hclosing
  | @division blocks rest e hsplit hblocks haccepted hbroken hsegment =>
    have htext : text ≠ "" := ne_empty_of_segment_eq_error hopening hclosing hsegment
    -- All expressions in front of the fault are accepted, so the division comes to it.
    obtain ⟨parts, hparts⟩ := acceptsAll_iff.mp haccepted
    rw [parseTemplate_of_blocks hopening hclosing htext hsplit hblocks, hparts,
      divide_broken hbroken]
    rfl

/-- Where the parts of a row of blocks cannot be made, the parser refuses an expression. -/
theorem exists_refusal {e : Error}
    (hsplit : text.toList = written d blocks ++ rest) (hblocks : ∀ b ∈ blocks, b.WellFormed d)
    (h : (segmentsOf d .zero blocks).mapM (Builder.parts parser d text).ofSegment = .error e) :
    ∃ origin e', Refusal parser text d origin e' ∧ e = e'.rebase origin := by
  obtain ⟨accepted, b, others, e', rfl, haccepted, hrefused, rfl⟩ := mapM_parts_eq_error_iff.mp h
  -- The blocks up to the refused one, and those in front of it.
  have hfront : text.toList = written d (accepted ++ [b]) ++ (written d others ++ rest) := by
    simp [hsplit, written_append]
  have hstart : text.toList =
      written d accepted ++ (b.written d ++ (written d others ++ rest)) := by
    simp [hsplit, written_append]
  rw [Offset.zero_add, charOffset_start hstart]
  refine ⟨_, e', .first hfront ?_ haccepted hrefused, rfl⟩
  intro b' hb'
  apply hblocks
  rw [List.append_cons]
  exact List.mem_append_left _ hb'

/-- A template is not read only because of the first failure in the order of its text. -/
theorem readingFault_of_parseTemplate {e : Error} (hopening : d.opening ≠ "")
    (hclosing : d.closing ≠ "") (h : parseTemplate parser text d = .error e) :
    ReadingFault .exact parser text d e := by
  rcases text_cases hopening text with rfl | ⟨htext, blocks, rest, hsplit, hblocks, hrest⟩
  · have hsegment := segment_empty hopening hclosing
    rw [(parseTemplate_of_segment parser hopening hclosing hsegment).2] at h
    cases h
  · rw [parseTemplate_of_blocks hopening hclosing htext hsplit hblocks] at h
    -- The expressions of the blocks come first, and then what is behind the blocks.
    cases hparts : (segmentsOf d .zero blocks).mapM (Builder.parts parser d text).ofSegment with
    | error e' =>
      rw [hparts] at h
      cases h
      obtain ⟨origin, e, hrefusal, rfl⟩ := exists_refusal hsplit hblocks hparts
      exact .expression hrefusal (Error.moved_exact_iff.mpr rfl)
    | ok parts =>
      rw [hparts] at h
      rcases hrest with htail | ⟨e', hbroken⟩
      · rw [divide_static ((nextExpression_eq_static_iff hopening).mpr htail)] at h
        cases h
      · rw [divide_broken hbroken] at h
        cases h
        exact .division hsplit hblocks (acceptsAll_iff.mpr ⟨parts, hparts⟩) hbroken
          (segment_faulty hopening hclosing htext hsplit hblocks hbroken)

/-- An error with a position is a failure in the order of the text: the tokens have none. -/
theorem readingFault_of_position {e : Error} {pos : Nat}
    (h : parseTemplate parser text d = .error e) (hpos : e.kind.position? = some pos) :
    ReadingFault .exact parser text d e := by
  cases hfault : d.fault? with
  | none =>
    obtain ⟨hopening, hclosing⟩ := Delimiters.fault?_eq_none_iff.mp hfault
    exact readingFault_of_parseTemplate hopening hclosing h
  | some token =>
    have hcheck : d.check = .error (.unspanned (.invalidDelimiter token)) := by
      rw [Delimiters.check, hfault]
    rw [parseTemplate, Delimiters.guarded_of_check hcheck] at h
    cases h
    cases hpos

/-- A text that is read has segments. -/
theorem segment_of_parseTemplate {t : Template ε} (hopening : d.opening ≠ "")
    (hclosing : d.closing ≠ "") (h : parseTemplate parser text d = .ok t) :
    ∃ segs, segment text d = .ok segs := by
  rcases text_cases hopening text with rfl |
    ⟨htext, blocks, rest, hsplit, hblocks, htail | ⟨e, hbroken⟩⟩
  · exact ⟨_, segment_empty hopening hclosing⟩
  · exact ⟨_, segment_template hopening hclosing htext hsplit hblocks htail⟩
  · -- A fault of the text is a failure, whatever the parser says of the expressions.
    rw [parseTemplate_of_blocks hopening hclosing htext hsplit hblocks, divide_broken hbroken] at h
    cases hparts : (segmentsOf d .zero blocks).mapM (Builder.parts parser d text).ofSegment with
    | error e' =>
      rw [hparts] at h
      cases h
    | ok parts =>
      rw [hparts] at h
      cases h

theorem tokens_of_parseTemplate {t : Template ε} (h : parseTemplate parser text d = .ok t) :
    d.opening ≠ "" ∧ d.closing ≠ "" :=
  Delimiters.nonempty_of_guarded h

/-- A template that is read is made of the parts of the segments. -/
theorem exists_parts_of_parseTemplate {t : Template ε} (h : parseTemplate parser text d = .ok t) :
    ∃ segs parts, segs ≠ [] ∧ segment text d = .ok segs ∧
      List.Forall₂ (PartOf parser d) segs parts ∧ t = .ofParts text parts := by
  obtain ⟨hopening, hclosing⟩ := tokens_of_parseTemplate h
  obtain ⟨segs, hsegs⟩ := segment_of_parseTemplate hopening hclosing h
  obtain ⟨hne, hparse⟩ := parseTemplate_of_segment parser hopening hclosing hsegs
  rw [hparse] at h
  cases hparts : segs.mapM (Builder.parts parser d text).ofSegment with
  | error e =>
    rw [hparts] at h
    cases h
  | ok parts =>
    rw [hparts] at h
    exact ⟨segs, parts, hne, hsegs,
      (mapM_eq_ok_iff.mp hparts).imp fun _ _ => ofSegment_eq_ok_iff.mp, (Except.ok.inj h).symm⟩

/-- A template as it comes from the segments of its text: of the parts that the parser makes of
them, put together, and counted in the line about the template. -/
def ReadAs (parser : SubParser ε) (text : String) (d : Delimiters) (t : Template ε) : Prop :=
  ∃ segs parts, segment text d = .ok segs ∧ List.Forall₂ (PartOf parser d) segs parts ∧
    Assembled text segs parts t ∧
    t.summary = "ok: " ++ toString (segs.countP fun s => !s.isExpression) ++
      " literal(s), " ++ toString (segs.countP Segment.isExpression) ++ " expression(s)"

/-- The templates that are read. -/
theorem parseTemplate_eq_ok_iff {t : Template ε} :
    parseTemplate parser text d = .ok t ↔ ReadAs parser text d t := by
  constructor
  · intro h
    obtain ⟨segs, parts, hne, hsegs, hparts, hassembled⟩ := exists_parts_of_parseTemplate h
    have hassembled := (ofParts_eq_iff hparts hne).mp hassembled.symm
    exact ⟨segs, parts, hsegs, hparts, hassembled, hassembled.summary hparts⟩
  · intro h
    obtain ⟨segs, parts, hsegs, hparts, hassembled, -⟩ := h
    obtain ⟨hopening, hclosing⟩ := tokens_of_segment hsegs
    obtain ⟨hne, hparse⟩ := parseTemplate_of_segment parser hopening hclosing hsegs
    rw [hparse, mapM_eq_ok_iff.mpr (hparts.imp fun _ _ => ofSegment_eq_ok_iff.mpr)]
    exact congrArg Except.ok ((ofParts_eq_iff hparts hne).mpr hassembled)

/-- The templates that are not read.  Both tokens are checked before anything else. -/
theorem parseTemplate_eq_error_iff {e : Error} :
    parseTemplate parser text d = .error e ↔
      d.check = .error e ∨ d.check = .ok () ∧ ReadingFault .exact parser text d e := by
  cases hcheck : d.check with
  -- An empty token is reported first.
  | error e' => simp [parseTemplate, Delimiters.guarded_of_check hcheck]
  | ok _ =>
    obtain ⟨hopening, hclosing⟩ := Delimiters.check_eq_ok_iff.mp hcheck
    constructor
    · intro h
      exact .inr ⟨rfl, readingFault_of_parseTemplate hopening hclosing h⟩
    · intro h
      rcases h with h | ⟨-, h⟩
      · cases h
      · exact h.parseTemplate_eq hopening hclosing

end Interpolation
