import Interpolation.Proofs.Layout
import Mathlib

/-!
# Canonical text

The segments of a text forget the blanks around its expressions.  Written out again they make up the
canonical text, in which each expression is right between its tokens.  Taking blanks away moves the
closing token next to the expression, and it might be found earlier there, its first characters in
the expression and the others its own.  That takes a token that overlaps itself; any other gives a
canonical text with the same segments.

## Main definitions

- `Borderless`: a token that does not overlap itself.
- `canonicalText`: segments written out again.
- `Block.bare`, `Layout.bare`: a layout without the blanks around its expressions.

## Main results

- `Borderless.prefix_of_append`: a borderless token is not found across its own start.
- `Block.WellFormed.bare`: without its blanks an expression is still read as it was.
- `segment_canonicalText`: the canonical text has the same segments, and is its own canonical text.
-/

namespace Interpolation

/-- No beginning of a token is an end of it as well, other than nothing and the whole token. -/
def Borderless (token : List Char) : Prop :=
  ∀ u, u <+: token → u <:+ token → u = [] ∨ u = token

namespace Segment

/-- Kind and text of a segment, wherever it stands: whether it is an expression, and which text. -/
def content (s : Segment) : Bool × String := (s.isExpression, s.text)

/-- A segment as it is written without blanks. -/
def canonicalText (d : Delimiters) : Segment → String
  | literal text _ => text
  | expression text _ => d.opening ++ text ++ d.closing

end Segment

/-- Segments as they are written without blanks around the expressions. -/
def canonicalText (d : Delimiters) (segs : List Segment) : String :=
  String.join (segs.map (·.canonicalText d))

variable {d : Delimiters} {token : List Char}

/-! ## Layer A: tokens that do not overlap themselves -/

/-- A single character does not overlap itself. -/
theorem borderless_singleton (c : Char) : Borderless [c] := by
  intro u hstart _
  cases u with
  | nil => exact .inl rfl
  -- A beginning that is not empty is the whole token.
  | cons a u =>
    obtain ⟨rest, hrest⟩ := hstart
    rw [List.cons_append, List.cons.injEq, List.append_eq_nil_iff] at hrest
    obtain ⟨rfl, rfl, -⟩ := hrest
    exact .inr rfl

/-- Where text stands in front of a borderless token, the token is found earlier only if it ends in
front of itself. -/
theorem Borderless.prefix_of_append {w : List Char} (hborder : Borderless token) (hw : w ≠ [])
    (h : token <+: w ++ token) : token <+: w := by
  rcases List.prefix_or_prefix_of_prefix h (List.prefix_append w token) with hends | hstarts
  · exact hends
  · obtain ⟨border, hborderEq⟩ := hstarts
    -- What of the token reaches into the token behind `w` is an end of it, and a beginning too.
    have hbegin : border <+: token := by
      rw [← hborderEq] at h
      have hcancel : border <+: w ++ border := (List.prefix_append_right_inj w).mp h
      rwa [hborderEq] at hcancel
    have hend : border <:+ token := ⟨w, hborderEq⟩
    -- The token reaches into itself with nothing, or with all of it.
    rcases hborder border hbegin hend with rfl | rfl
    · rw [List.append_nil] at hborderEq
      subst hborderEq
      exact List.prefix_refl w
    · exact absurd (List.append_left_eq_self.mp hborderEq) hw

/-! ## Layer B: an expression without the blanks around it -/

theorem role_of_isBlank {c : Char} (h : isBlank c = true) : CharRole.of c = .plain := by
  by_contra hrole
  rcases CharRole.of_ne_plain_iff.mp hrole with rfl | rfl | rfl | rfl | rfl | rfl | rfl | rfl <;>
    exact absurd h (by decide)

theorem AllBlank.plain {u : List Char} (h : AllBlank u) : ∀ c ∈ u, CharRole.of c = .plain :=
  fun c hc => role_of_isBlank (h c hc)

/-- A block without the blanks around its expression. -/
def Block.bare (b : Block) : Block := { b with lead := [], trail := [] }

@[simp] theorem Block.body_bare (b : Block) : b.bare.body = b.raw := by
  simp [Block.bare, Block.body]

theorem Block.written_bare (b : Block) :
    b.bare.written d = b.before ++ (d.opening.toList ++ (b.raw ++ d.closing.toList)) := by
  rw [Block.written, Block.body_bare]
  rfl

theorem Block.WellFormed.balanced_raw {b : Block} (h : b.WellFormed d) : Balanced b.raw := by
  -- Blanks are plain, so they can be taken away at both ends.
  have hbody : Balanced (b.lead ++ b.raw) := h.balanced.of_append_plain h.trail.plain
  exact (balanced_of_plain h.lead.plain).of_append_left hbody

/-- Without blanks around it an expression still ends at the closing token behind it. -/
theorem Block.WellFormed.noneLive_raw {b : Block} (hborder : Borderless d.closing.toList)
    (h : b.WellFormed d) : NoneLive d.closing.toList b.raw d.closing.toList := by
  intro v w hvw hw hbalanced hstarts
  -- The token does not overlap itself, so it would end in the expression.
  have hinside : d.closing.toList <+: w := hborder.prefix_of_append hw hstarts
  have hbody : b.body = (b.lead ++ v) ++ (w ++ b.trail) := by
    rw [Block.body, hvw]
    simp
  have hfront : Balanced (b.lead ++ v) := (balanced_of_plain h.lead.plain).append hbalanced
  have hne : w ++ b.trail ≠ [] := by simp [hw]
  -- A token within the expression would have been found with the blanks around it, too.
  have hnot := h.noneLive (b.lead ++ v) (w ++ b.trail) hbody hne hfront
  rw [List.append_assoc] at hnot
  exact hnot (List.prefix_append_of_prefix hinside)

/-- Without its blanks an expression is still read as it was. -/
theorem Block.WellFormed.bare {b : Block} (hborder : Borderless d.closing.toList)
    (h : b.WellFormed d) : b.bare.WellFormed d where
  avoids := h.avoids
  lead := by
    intro c hc
    cases hc
  raw := h.raw
  trail := by
    intro c hc
    cases hc
  balanced := by
    rw [Block.body_bare]
    exact h.balanced_raw
  noneLive := by
    rw [Block.body_bare]
    exact h.noneLive_raw hborder

/-! ## Layer C: layouts without blanks -/

theorem toList_canonicalText (segs : List Segment) :
    (canonicalText d segs).toList = segs.flatMap fun s => (s.canonicalText d).toList := by
  rw [canonicalText, String.toList_join, List.flatMap_map]

/-- The segments of static text are written as the text is. -/
theorem flatMap_staticSegments (here : Offset) (static : List Char) :
    ((staticSegments here static).flatMap fun s => (s.canonicalText d).toList) =
      static := by
  unfold staticSegments
  split
  · next hnil => rw [hnil, List.flatMap_nil]
  · rw [List.flatMap_singleton]
    exact String.toList_ofList

theorem content_staticSegments (here here' : Offset) (static : List Char) :
    (staticSegments here static).map Segment.content =
      (staticSegments here' static).map Segment.content := by
  unfold staticSegments
  split <;> rfl

/-- The segments of a row of blocks are written as the row is without its blanks. -/
theorem flatMap_segmentsOf (here : Offset) (blocks : List Block) :
    ((segmentsOf d here blocks).flatMap fun s => (s.canonicalText d).toList) =
      written d (blocks.map Block.bare) := by
  induction blocks generalizing here with
  | nil => rfl
  | cons b blocks ih =>
    -- An expression is written right between its tokens.
    have hexpression : ((b.expression d here).canonicalText d).toList =
        d.opening.toList ++ (b.raw ++ d.closing.toList) := by
      simp [Block.expression, Segment.canonicalText]
    rw [segmentsOf, Block.segments, List.flatMap_append, List.flatMap_append, ih,
      flatMap_staticSegments, List.flatMap_singleton, hexpression, List.map_cons, written_cons,
      Block.written_bare, List.append_assoc]

/-- Without its blanks a row of blocks has the same segments, in other places. -/
theorem content_segmentsOf (here here' : Offset) (blocks : List Block) :
    (segmentsOf d here (blocks.map Block.bare)).map Segment.content =
      (segmentsOf d here' blocks).map Segment.content := by
  induction blocks generalizing here here' with
  | nil => rfl
  | cons b blocks ih =>
    have hexpression : (b.bare.expression d here).content = (b.expression d here').content := rfl
    have hbefore : b.bare.before = b.before := rfl
    rw [List.map_cons, segmentsOf, segmentsOf, Block.segments, Block.segments, List.map_append,
      List.map_append, List.map_append, List.map_append, ih _ (here' + extent (b.written d)),
      hbefore, content_staticSegments here here', List.map_singleton, List.map_singleton,
      hexpression]

namespace Layout

/-- A layout without the blanks around its expressions. -/
def bare (hborder : Borderless d.closing.toList) (layout : Layout d) : Layout d where
  blocks := layout.blocks.map Block.bare
  tail := layout.tail
  wellFormed := by
    intro b hb
    obtain ⟨padded, hpadded, rfl⟩ := List.mem_map.mp hb
    exact (layout.wellFormed padded hpadded).bare hborder
  static := layout.static

theorem canonicalText_segments (hborder : Borderless d.closing.toList) (layout : Layout d)
    (here : Offset) :
    (canonicalText d (layout.segments here)).toList = (layout.bare hborder).written := by
  rw [toList_canonicalText, segments, List.flatMap_append, flatMap_segmentsOf,
    flatMap_staticSegments]
  rfl

theorem content_segments_bare (hborder : Borderless d.closing.toList) (layout : Layout d)
    (here : Offset) :
    ((layout.bare hborder).segments here).map Segment.content =
      (layout.segments here).map Segment.content := by
  rw [segments, segments, List.map_append, List.map_append]
  exact congrArg₂ (· ++ ·) (content_segmentsOf here here layout.blocks)
    (content_staticSegments _ _ layout.tail)

/-- Only the empty text has a layout without text. -/
theorem written_bare_ne_nil (hborder : Borderless d.closing.toList) (hopening : d.opening ≠ "")
    {layout : Layout d} (h : layout.written ≠ []) : (layout.bare hborder).written ≠ [] := by
  obtain ⟨blocks, tail, hblocks, htail⟩ := layout
  cases blocks with
  | nil => exact h
  | cons b blocks =>
    intro hnil
    have hpos : 0 < (b.bare.written d).length := b.bare.length_pos hopening
    have hlen := congrArg List.length hnil
    simp only [written, bare, List.map_cons, written_cons, List.length_append,
      List.length_nil] at hlen
    omega

end Layout

/-! ## Main result -/

/-- What a segment is written as depends on its kind and its text. -/
theorem Segment.canonicalText_congr {s s' : Segment} (h : s.content = s'.content) :
    s.canonicalText d = s'.canonicalText d := by
  -- Kinds decide about the tokens.
  obtain ⟨hkind, htext⟩ := Prod.mk.inj h
  cases s with
  | literal text span =>
    cases s' with
    | literal text' span' => exact htext
    | expression text' span' => cases hkind
  | expression text span =>
    cases s' with
    | literal text' span' => cases hkind
    | expression text' span' =>
      have heq : text = text' := htext
      rw [canonicalText, canonicalText, heq]

/-- Segments with the same kinds and texts are written alike. -/
theorem canonicalText_eq_of_content {segs segs' : List Segment}
    (h : segs'.map Segment.content = segs.map Segment.content) :
    canonicalText d segs' = canonicalText d segs := by
  induction segs' generalizing segs with
  | nil =>
    rw [List.map_nil, List.nil_eq, List.map_eq_nil_iff] at h
    rw [h]
  | cons s' segs' ih =>
    cases segs with
    | nil => cases h
    | cons s segs =>
      rw [List.map_cons, List.map_cons, List.cons.injEq] at h
      have hrest : canonicalText d segs' = canonicalText d segs := ih h.2
      unfold canonicalText at hrest ⊢
      rw [List.map_cons, List.map_cons, String.join_cons, String.join_cons,
        Segment.canonicalText_congr h.1, hrest]

/-- **The canonical text has the same segments.**  Where the closing token does not overlap itself,
the segments of a text, written out without the blanks around the expressions, are a text with the
same segments, and that text stays as it is when its segments are written out. -/
theorem segment_canonicalText {text : String} {segs : List Segment}
    (hborder : Borderless d.closing.toList) (h : segment text d = .ok segs) :
    ∃ segs', segment (canonicalText d segs) d = .ok segs' ∧
      segs'.map Segment.content = segs.map Segment.content ∧
      canonicalText d segs' = canonicalText d segs := by
  obtain ⟨hopening, hclosing⟩ := tokens_of_segment h
  rcases exists_layout h with ⟨rfl, rfl⟩ | ⟨hne, layout, htext, rfl⟩
  · exact ⟨_, segment_empty hopening hclosing, rfl, rfl⟩
  · -- The canonical text is that of the layout without its blanks, which is a layout as well.
    have hwritten : layout.written ≠ [] := by
      rw [← htext]
      exact fun hnil => hne (String.toList_eq_nil_iff.mp hnil)
    have hcanonical := layout.canonicalText_segments hborder .zero
    have hcanonicalNe : canonicalText d (layout.segments .zero) ≠ "" := by
      intro hnil
      rw [hnil] at hcanonical
      exact Layout.written_bare_ne_nil hborder hopening hwritten hcanonical.symm
    have hcontent := layout.content_segments_bare hborder .zero
    exact ⟨_, (layout.bare hborder).segment_eq hopening hclosing hcanonical hcanonicalNe, hcontent,
      canonicalText_eq_of_content hcontent⟩

/-- The blanks in front of the brace go, and what is in quotes stays. -/
theorem segment_canonicalText_dollar :
    Borderless Delimiters.dollar.closing.toList ∧
      segment "a$\x7b f['\x7d'] \x7db" .dollar =
        .ok [.literal "a" ⟨0, 1⟩, .expression "f['\x7d']" ⟨4, 10⟩, .literal "b" ⟨12, 13⟩] ∧
      ∃ segs', segment "a$\x7bf['\x7d']\x7db" .dollar = .ok segs' ∧
        segs'.map Segment.content =
          [(false, "a"), (true, "f['\x7d']"), (false, "b")] := by
  have hborder : Borderless Delimiters.dollar.closing.toList := borderless_singleton '\x7d'
  have hsegment : segment "a$\x7b f['\x7d'] \x7db" .dollar =
      .ok [.literal "a" ⟨0, 1⟩, .expression "f['\x7d']" ⟨4, 10⟩, .literal "b" ⟨12, 13⟩] := by
    cbv
  obtain ⟨segs', hsegs', hcontent, -⟩ := segment_canonicalText hborder hsegment
  exact ⟨hborder, hsegment, segs', hsegs', hcontent⟩

-- Two dashes overlap themselves: without the blank the expression would be cut short.
example :
    segment "$\x7ba- --" ⟨"$\x7b", "--", true⟩ = .ok [.expression "a-" ⟨2, 4⟩] ∧
      segment "$\x7ba---" ⟨"$\x7b", "--", true⟩ =
        .ok [.expression "a" ⟨2, 3⟩, .literal "-" ⟨5, 6⟩] := by
  constructor <;> cbv

end Interpolation
