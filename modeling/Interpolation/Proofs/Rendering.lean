import Interpolation.Expression.Parser
import Interpolation.Proofs.TemplateParser
import Mathlib

/-!
# Rendering a template

The text of a template is what its segments add to it, one after another.  A template is static
text, an expression, or several pieces, and which of them it is makes no difference to its text; it
does make a difference to its value, which is that of the expression where the template is just one.

## Main definitions

- `SegmentText`: what a segment adds to the text of its template.

## Main results

- `joinTexts_eq_ok_iff`, `joinTexts_eq_error_iff`: pieces are joined up to the first that fails.
- `renderText_ofParts`: the shape of a template makes no difference to its text.
- `rendering_of_parseTemplate`: text and value of a template, by its segments.
-/

namespace Interpolation

/-- What a segment adds to the text of its template: static text itself, and of an expression the
text of the value of its tree. -/
inductive SegmentText (scope : Scope) : Segment → Except Error String → Prop where
  /-- Static text. -/
  | literal (static : String) (span : Span) : SegmentText scope (.literal static span) (.ok static)
  /-- What an expression evaluates to, or its failure. -/
  | expression {raw : String} {node : Node} (span : Span) :
      Grammar.parseNode raw = .ok node →
      SegmentText scope (.expression raw span) ((node.evaluate scope).map Value.contribution)

variable {ε : Type} {scope : Scope} {text : String} {d : Delimiters} {parts : List (Part ε)}

/-! ## Layer A: joining pieces -/

section Joining

variable [Evaluable ε]

theorem joinTexts_cons (scope : Scope) (part : Part ε) (parts : List (Part ε)) :
    Composite.joinTexts scope (part :: parts) =
      (renderText part scope).bind fun text =>
        (Composite.joinTexts scope parts).map (text ++ ·) := by
  rw [Composite.joinTexts]
  cases renderText part scope <;> rfl

/-- Pieces have a text if each of them has one, and it is their texts in a row. -/
theorem joinTexts_eq_ok_iff {s : String} :
    Composite.joinTexts scope parts = .ok s ↔
      ∃ texts, parts.map (renderText · scope) = texts.map .ok ∧ s = String.join texts := by
  induction parts generalizing s with
  | nil =>
    constructor
    · intro h
      cases h
      exact ⟨[], rfl, rfl⟩
    · intro h
      obtain ⟨texts, htexts, rfl⟩ := h
      rw [List.map_nil, List.nil_eq, List.map_eq_nil_iff] at htexts
      subst htexts
      rfl
  | cons part parts ih =>
    rw [joinTexts_cons, List.map_cons]
    constructor
    · intro h
      cases hpart : renderText part scope with
      | error e => simp [hpart, Except.bind] at h
      | ok first =>
        -- The first piece has a text, so the others decide.
        cases hothers : Composite.joinTexts scope parts with
        | error e => simp [hpart, hothers, Except.bind, Except.map] at h
        | ok others =>
          obtain ⟨texts, htexts, rfl⟩ := ih.mp hothers
          rw [hpart, hothers] at h
          cases h
          refine ⟨first :: texts, ?_, String.join_cons.symm⟩
          rw [htexts, List.map_cons]
    · intro h
      obtain ⟨texts, htexts, rfl⟩ := h
      cases texts with
      | nil => cases htexts
      | cons first texts =>
        rw [List.map_cons, List.cons.injEq] at htexts
        obtain ⟨hpart, hothers⟩ := htexts
        rw [hpart, ih.mpr ⟨texts, hothers, rfl⟩, String.join_cons]
        rfl

/-- The first piece that fails, fails them all. -/
theorem joinTexts_eq_error_iff {e : Error} :
    Composite.joinTexts scope parts = .error e ↔
      ∃ (texts : List String) (others : List (Except Error String)),
        parts.map (renderText · scope) = texts.map .ok ++ .error e :: others := by
  induction parts with
  | nil =>
    constructor
    · intro h
      cases h
    · intro h
      obtain ⟨texts, others, htexts⟩ := h
      simp at htexts
  | cons part parts ih =>
    rw [joinTexts_cons, List.map_cons]
    constructor
    · intro h
      cases hpart : renderText part scope with
      | error e' =>
        rw [hpart] at h
        cases h
        exact ⟨[], _, rfl⟩
      | ok first =>
        cases hothers : Composite.joinTexts scope parts with
        | ok others => simp [hpart, hothers, Except.bind, Except.map] at h
        | error e' =>
          rw [hpart, hothers] at h
          cases h
          obtain ⟨texts, others, htexts⟩ := ih.mp hothers
          exact ⟨first :: texts, others, by rw [htexts]; rfl⟩
    · intro h
      obtain ⟨texts, others, htexts⟩ := h
      -- The failure is that of the first piece, or of a later one.
      cases texts with
      | nil =>
        rw [List.map_nil, List.nil_append, List.cons.injEq] at htexts
        rw [htexts.1]
        rfl
      | cons first texts =>
        rw [List.map_cons, List.cons_append, List.cons.injEq] at htexts
        rw [htexts.1, ih.mpr ⟨texts, others, htexts.2⟩]
        rfl

end Joining

/-! ## Layer B: the shapes of a template -/

/-- Unless there is just one part, a template is a row of parts. -/
theorem ofParts_eq_composite (source : String) (hliteral : ∀ text, parts ≠ [.literal text])
    (hexpression : ∀ e, parts ≠ [.expression e]) :
    Template.ofParts source parts = .composite ⟨source, parts⟩ := by
  unfold Template.ofParts
  split
  · next text => exact absurd rfl (hliteral text)
  · next e => exact absurd rfl (hexpression e)
  · rfl

section Shapes

variable [Evaluable ε]

theorem renderText_composite (source : String) (parts : List (Part ε)) (scope : Scope) :
    renderText (Template.composite ⟨source, parts⟩) scope = Composite.joinTexts scope parts := by
  show ((Composite.joinTexts scope parts).map Value.string).map Value.contribution = _
  cases Composite.joinTexts scope parts <;> rfl

theorem joinTexts_singleton (scope : Scope) (part : Part ε) :
    Composite.joinTexts scope [part] = renderText part scope := by
  rw [joinTexts_cons]
  cases renderText part scope with
  | error e => rfl
  | ok text => exact congrArg Except.ok String.append_empty

/-- The shape of a template makes no difference to its text. -/
theorem renderText_ofParts (source : String) (parts : List (Part ε)) (scope : Scope) :
    renderText (Template.ofParts source parts) scope = Composite.joinTexts scope parts := by
  -- A single piece of static text, a single expression, or more than that.
  by_cases hliteral : ∃ text, parts = [.literal text]
  · obtain ⟨text, rfl⟩ := hliteral
    exact (joinTexts_singleton scope (.literal text)).symm
  · by_cases hexpression : ∃ e, parts = [.expression e]
    · obtain ⟨e, rfl⟩ := hexpression
      exact (joinTexts_singleton scope (.expression e)).symm
    · rw [ofParts_eq_composite source (not_exists.mp hliteral) (not_exists.mp hexpression)]
      exact renderText_composite source parts scope

/-- Unless it is just an expression, a template has its text for its value. -/
theorem value_ofParts (source : String) (scope : Scope)
    (hexpression : ∀ e, parts ≠ [.expression e]) :
    Evaluable.value (Template.ofParts source parts) scope =
      (renderText (Template.ofParts source parts) scope).map .string := by
  by_cases hliteral : ∃ text, parts = [.literal text]
  · obtain ⟨text, rfl⟩ := hliteral
    rfl
  · rw [ofParts_eq_composite source (not_exists.mp hliteral) hexpression, renderText_composite]
    rfl

end Shapes

/-! ## Layer C: pieces and segments -/

/-- A piece renders as its segment says. -/
theorem PartOf.segmentText {s : Segment} {part : Part Expression}
    (h : PartOf Expression.parse d s part) (scope : Scope) :
    SegmentText scope s (renderText part scope) := by
  cases h with
  | literal static span => exact .literal static span
  | @expression raw e span hparse =>
    -- The part is an expression, so there is a tree.
    cases hnode : Grammar.parseNode raw with
    | error e' =>
      rw [Expression.parse, hnode] at hparse
      cases hparse
    | ok node =>
      rw [Expression.parse, hnode] at hparse
      cases hparse
      exact .expression span hnode

/-- Only the segment of an expression has an expression for its part. -/
theorem exists_segment_of_expression {parser : SubParser ε} {segs : List Segment} {e : ε}
    (h : List.Forall₂ (PartOf parser d) segs [.expression e]) :
    ∃ raw span, segs = [.expression raw span] ∧ parser raw d = .ok e := by
  cases h with
  | cons hfirst hothers =>
    cases hothers
    cases hfirst with
    | expression span hparse => exact ⟨_, span, rfl, hparse⟩

/-! ## Main result -/

/-- **Rendering is concatenation over the segments.**  The text of a template is the text of its
segments, one after another, and it fails with the first of them that fails.  Its value is that of
the expression where the template is just one, and its text otherwise. -/
theorem rendering_of_parseTemplate {t : Template Expression}
    (h : parseTemplate Expression.parse text d = .ok t) (scope : Scope) :
    ∃ segs outcomes, segment text d = .ok segs ∧
      List.Forall₂ (SegmentText scope) segs outcomes ∧
      (∀ s, renderText t scope = .ok s ↔
        ∃ texts, outcomes = texts.map .ok ∧ s = String.join texts) ∧
      (∀ e, renderText t scope = .error e ↔
        ∃ (texts : List String) (others : List (Except Error String)),
          outcomes = texts.map .ok ++ .error e :: others) ∧
      (∀ raw span node, segs = [.expression raw span] → Grammar.parseNode raw = .ok node →
        Evaluable.value t scope = node.evaluate scope) ∧
      ((∀ raw span, segs ≠ [.expression raw span]) →
        Evaluable.value t scope = (renderText t scope).map .string) := by
  obtain ⟨segs, parts, -, hsegs, hparts, rfl⟩ := exists_parts_of_parseTemplate h
  refine ⟨segs, parts.map (renderText · scope), hsegs, ?_, ?_, ?_, ?_, ?_⟩
  · rw [List.forall₂_map_right_iff]
    exact hparts.imp fun _ _ hpart => hpart.segmentText scope
  · intro s
    rw [renderText_ofParts]
    exact joinTexts_eq_ok_iff
  · intro e
    rw [renderText_ofParts]
    exact joinTexts_eq_error_iff
  · -- A single segment has a single part, and the template is that part.
    intro raw span node hsingle hnode
    subst hsingle
    cases hparts with
    | cons hfirst hothers =>
      cases hothers
      cases hfirst with
      | expression _ hparse =>
        rw [Expression.parse, hnode] at hparse
        cases hparse
        rfl
  · -- No single part is an expression, or its segment would be one.
    intro hmixed
    apply value_ofParts
    intro e hsingle
    subst hsingle
    obtain ⟨raw, span, hsegs, -⟩ := exists_segment_of_expression hparts
    exact hmixed raw span hsegs

/-- Static text and an expression between; the expression has no value and adds nothing. -/
theorem rendering_of_parseTemplate_composite :
    parseTemplate Expression.parse "é$\x7bx\x7d!" .dollar =
        .ok (.composite ⟨"é$\x7bx\x7d!",
          [.literal "é", .expression ⟨"x", .path ⟨"x", []⟩⟩, .literal "!"]⟩) ∧
      ∃ segs outcomes, segment "é$\x7bx\x7d!" .dollar = .ok segs ∧
        List.Forall₂ (SegmentText .empty) segs outcomes ∧
        ∃ texts, outcomes = texts.map .ok ∧ "é!" = String.join texts := by
  have hparse : parseTemplate Expression.parse "é$\x7bx\x7d!" .dollar =
      .ok (.composite ⟨"é$\x7bx\x7d!",
        [.literal "é", .expression ⟨"x", .path ⟨"x", []⟩⟩, .literal "!"]⟩) := by
    cbv
  obtain ⟨segs, outcomes, hsegs, houtcomes, htext, -⟩ := rendering_of_parseTemplate hparse .empty
  refine ⟨hparse, segs, outcomes, hsegs, houtcomes, (htext "é!").mp ?_⟩
  rfl

end Interpolation
