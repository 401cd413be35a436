import Interpolation.Expression.Parser
import Interpolation.Proofs.ClosingToken
import Interpolation.Proofs.Grammar.Sentence
import Interpolation.Proofs.TemplateParser
import Mathlib

/-!
# The positions of errors

An error of a template counts its span in bytes and its position in characters, and it names
characters and tokens of the text.  All of that is true of the template as a whole, wherever the
fault was found: by the scan, which counts from the start of the text, or by the parser of single
expressions, which counts from the start of the expression and whose errors are moved.

## Main definitions

- `ErrorKind.TrueOf`: what a cause says about the text at its span.
- `Error.TrueOf`: span, position and cause of an error agree with the text.

## Main results

- `exists_place_of_parseNode`: the parser of expressions reports places of its text.
- `ScanFault.trueOf`, `trueOf_of_broken`, `ReadingFault.trueOf`: faults of each origin.
- `trueOf_of_parseTemplate`: every error of a template that has a position.
-/

namespace Interpolation

/-- What a cause says about a text: `slice` stands at its span and `behind` follows. -/
def ErrorKind.TrueOf (d : Delimiters) (text slice behind : List Char) : ErrorKind → Prop
  | .unterminatedSpan _ closing remainder =>
    slice = d.opening.toList ∧ closing = d.closing ∧ remainder.toList = slice ++ behind
  | .emptySpan _ opening closing =>
    opening = d.opening ∧ closing = d.closing ∧
      ∃ blanks, AllBlank blanks ∧ slice = d.opening.toList ++ (blanks ++ d.closing.toList)
  | .unbalancedCloser pos found _ => text[pos]? = some found
  | .mismatchedCloser pos found opener openerPos =>
    text[pos]? = some found ∧ text[openerPos]? = some opener ∧ openerPos < pos
  | .unbalancedOpener pos opener _ => text[pos]? = some opener
  | .unterminatedLiteral pos quote => text[pos]? = some quote
  | _ => True

/-- The span of an error is a stretch of the text, its position counts the characters in front of
the span, and the characters and tokens that its cause names stand there. -/
structure Error.TrueOf (text : String) (d : Delimiters) (e : Error) (pos : Nat) : Prop where
  /-- The span does not stop before it starts. -/
  ordered : e.span.start ≤ e.span.stop
  /-- It ends in the text. -/
  within : e.span.stop ≤ text.utf8ByteSize
  /-- A stretch of the text stands at the span, behind as many characters as the position says. -/
  stands : ∃ before slice behind, text.toList = before ++ (slice ++ behind) ∧
    (extent before).bytes = e.span.start ∧ (extent (before ++ slice)).bytes = e.span.stop ∧
    pos = before.length ∧ e.kind.TrueOf d text.toList slice behind

variable {text : String} {d : Delimiters} {e : Error} {pos : Nat}
  {before slice behind front rest : List Char}

/-! ## Layer A: errors of expressions -/

namespace Grammar

open Recogniser

/-- Where the reading of an expression fails furthest is a place of the text. -/
theorem exists_place_of_recognise {cs : List Char} {furthest : Furthest}
    (h : recognise cs = .error furthest) : ∃ u v, cs = u ++ v ∧ furthest.place = extent u := by
  obtain ⟨after, hrun, hahead⟩ :=
    Lawful.run (p := expression (cs.length + 1)) ⟨.zero, cs⟩ .initial
  have hafter : after = furthest := by
    rw [recognise, hrun] at h
    cases houtcome : (expression (cs.length + 1)).outcome ⟨.zero, cs⟩ with
    | none =>
      rw [houtcome] at h
      exact Except.error.inj h
    | some found =>
      rw [houtcome] at h
      cases h
  subst hafter
  -- The furthest failure is at the start or behind what has been read.
  rcases hahead with hplace | ⟨u, behind, hread, hplace⟩
  · exact ⟨[], cs, rfl, hplace⟩
  · refine ⟨u, behind.rest, hread.rest, ?_⟩
    rw [hplace, hread.here, Offset.zero_add]

theorem Sentence.exists_place {s : Sentence} {index : IndexToken} (h : index ∈ s.indices) :
    ∃ u v, s.written = u ++ v ∧ index.place = extent u := by
  obtain ⟨u, v, hsplit, hplace⟩ := s.tree.exists_place h
  refine ⟨s.lead.chars ++ u, v ++ s.trail.chars, ?_, ?_⟩
  · rw [Sentence.written, hsplit, List.append_assoc, List.append_assoc]
  · rw [hplace, extent_append]

/-- The parser of expressions reports a place of its text. -/
theorem exists_place_of_parseNode (h : parseNode text = .error e) :
    ∃ u v message, text.toList = u ++ v ∧ e = malformed (extent u) message := by
  cases hrecognise : recognise text.toList with
  -- No sentence: the place is that of the furthest failure.
  | error furthest =>
    obtain ⟨u, v, hsplit, hplace⟩ := exists_place_of_recognise hrecognise
    rw [parseNode, hrecognise] at h
    cases h
    exact ⟨u, v, furthest.message, hsplit, by rw [hplace]⟩
  -- A sentence with a number that is too large: the place is that of the number.
  | ok phrase =>
    obtain ⟨s, hs, -⟩ := recognise_eq_ok_iff.mp hrecognise
    rw [parseNode_of_sentence s hs] at h
    cases hfind : s.indices.find? (largestIndex < ·.value) with
    | none =>
      rw [hfind] at h
      cases h
    | some index =>
      rw [hfind] at h
      cases h
      obtain ⟨u, v, hsplit, hplace⟩ := Sentence.exists_place (List.mem_of_find?_eq_some hfind)
      exact ⟨u, v, _, hs.symm.trans hsplit, by rw [hplace]⟩

theorem rebase_malformed (u front : List Char) (message : String) :
    (malformed (extent u) message).rebase (extent front) =
      malformed (extent (front ++ u)) message := by
  rw [extent_append]
  simp [Error.rebase, malformed, Error.spanned, ErrorKind.mapPositions, Span.between, Span.shift,
    Nat.add_comm]

end Grammar

/-- What the parser of expressions refuses, it refuses at a place of the text. -/
theorem Expression.exists_place_of_parse (h : Expression.parse text d = .error e) :
    ∃ u v message, text.toList = u ++ v ∧ e = Grammar.malformed (extent u) message := by
  have hnode : Grammar.parseNode text = .error e := by
    rw [Expression.parse] at h
    cases hparse : Grammar.parseNode text with
    | ok node => simp [hparse, Except.map] at h
    | error e' => simpa [hparse, Except.map] using h
  exact Grammar.exists_place_of_parseNode hnode

/-- The errors of the parser of expressions lie in the expression. -/
theorem Expression.tellsWithin : SubParser.TellsWithin Expression.parse := by
  intro raw d e h
  obtain ⟨u, v, message, hraw, rfl⟩ := Expression.exists_place_of_parse h
  have hbytes := bytes_extent_le_append u v
  have hchars : raw.length = u.length + v.length := by
    rw [← String.length_toList, hraw, List.length_append]
  rw [← hraw, bytes_extent_toList] at hbytes
  refine ⟨?_, hbytes, hbytes⟩
  intro pos hpos
  have hplace : pos = (extent u).chars := by
    simpa [Grammar.malformed, Error.spanned, ErrorKind.positions] using hpos
  rw [hplace, chars_extent, hchars]
  exact Nat.le_add_right _ _

/-! ## Layer B: spans and characters -/

/-- An error is true of a text that is taken apart where the error says. -/
theorem trueOf_of_split (h : text.toList = before ++ (slice ++ behind))
    (hspan : e.span = .between (extent before) (extent (before ++ slice)))
    (hpos : e.kind.position? = some pos) (hchars : e.kind.position? = some before.length)
    (hkind : e.kind.TrueOf d text.toList slice behind) : e.TrueOf text d pos where
  ordered := by
    rw [hspan]
    exact bytes_extent_le_append before slice
  within := by
    rw [hspan, ← bytes_extent_toList, h, ← List.append_assoc]
    exact bytes_extent_le_append (before ++ slice) behind
  stands := by
    have hlength : pos = before.length := Option.some.inj (hpos.symm.trans hchars)
    exact ⟨before, slice, behind, h, by rw [hspan]; rfl, by rw [hspan]; rfl, hlength, hkind⟩

/-- A bracket or quote that stands at a byte offset, by the characters in front of it. -/
theorem exists_split_of_standsAt {c : Char} {p : Nat} (h : StandsAt text p [c])
    (hc : CharRole.of c ≠ .plain) :
    ∃ before behind, text.toList = before ++ ([c] ++ behind) ∧ charOffset text p = before.length ∧
      text.toList[before.length]? = some c ∧
      Span.ofLength p 1 = .between (extent before) (extent (before ++ [c])) := by
  obtain ⟨before, behind, htext, rfl⟩ := h
  rw [List.append_assoc] at htext
  refine ⟨before, behind, htext, charOffset_eq htext, by simp [htext], ?_⟩
  rw [Span.ofLength, Span.between, bytes_extent_concat hc]

/-- Bytes and characters count in the same order. -/
theorem length_lt_of_bytes_lt {u v u' v' : List Char} (h : u ++ v = u' ++ v')
    (hlt : (extent u).bytes < (extent u').bytes) : u.length < u'.length := by
  obtain ⟨w, rfl⟩ := prefix_of_bytes_le h (Nat.le_of_lt hlt)
  have hw : w ≠ [] := by
    rintro rfl
    simp at hlt
  have hpos : 0 < w.length := List.length_pos_iff.mpr hw
  rw [List.length_append]
  omega

theorem IsSlice.start_le_stop {start stop : Nat} (h : IsSlice text start stop slice) :
    start ≤ stop := by
  obtain ⟨before, behind, -, rfl, rfl⟩ := h
  exact bytes_extent_le_append before slice

/-- What trimming leaves nothing of is blank. -/
theorem allBlank_of_trim_eq_nil {u : List Char} (h : trim u = []) : AllBlank u := by
  -- Nothing is left at the end, and then nothing at the start.
  have hend : AllBlank (trimStart u) := by
    rw [trim, trimEnd, List.reverse_eq_nil_iff, List.dropWhile_eq_nil_iff] at h
    intro c hc
    exact h c (List.mem_reverse.mpr hc)
  have hstart : u.dropWhile isBlank = [] := by
    by_contra hne
    obtain ⟨c, cs, hcons, hc⟩ := exists_cons_of_dropWhile hne
    have hblank : isBlank c = true := hend c (by rw [trimStart, hcons]; exact List.mem_cons_self)
    rw [hc] at hblank
    cases hblank
  exact List.dropWhile_eq_nil_iff.mp hstart

/-! ## Layer C: faults of the text -/

/-- A fault of the scan is where the scan says. -/
theorem ScanFault.trueOf {closing : String} {start : Nat} (h : ScanFault text closing start e)
    (hpos : e.kind.position? = some pos) (d : Delimiters) : e.TrueOf text d pos := by
  cases h with
  | @unopened p u partner c hslice hbalanced hstands hpair hdead =>
    obtain ⟨before, behind, htext, hchars, hchar, hspan⟩ :=
      exists_split_of_standsAt hstands (by simp [hpair.closer])
    refine trueOf_of_split htext hspan hpos ?_ ?_
    · exact congrArg some hchars
    · show text.toList[charOffset text p]? = some c
      rw [hchars]
      exact hchar
  | @mismatched o p u w a c hbefore hopen hopener ha hafter hw hstands hc hne htoken hdead =>
    obtain ⟨before, behind, htext, hchars, hchar, hspan⟩ :=
      exists_split_of_standsAt hstands (by simp [hc])
    obtain ⟨front, rest, hfront, hopenerChars, hopenerChar, hopenerSpan⟩ :=
      exists_split_of_standsAt hopener (by simp [ha])
    refine trueOf_of_split htext hspan hpos ?_ ?_
    · exact congrArg some hchars
    · show text.toList[charOffset text p]? = some c ∧ text.toList[charOffset text o]? = some a ∧
        charOffset text o < charOffset text p
      rw [hchars, hopenerChars]
      -- The opening bracket stands in front of the closing one, in bytes and so in characters.
      have hstart : p = (extent before).bytes := congrArg Span.start hspan
      have hopenerStart : o = (extent front).bytes := congrArg Span.start hopenerSpan
      have hle : o + 1 ≤ p := hafter.start_le_stop
      exact ⟨hchar, hopenerChar, length_lt_of_bytes_lt (hfront.symm.trans htext) (by omega)⟩
  | @unclosed o stop u w a partner hbefore hopen hopener hpair hafter hw hend hdead =>
    obtain ⟨before, behind, htext, hchars, hchar, hspan⟩ :=
      exists_split_of_standsAt hopener (by simp [hpair.opener])
    refine trueOf_of_split htext hspan hpos ?_ ?_
    · exact congrArg some hchars
    · show text.toList[charOffset text o]? = some a
      rw [hchars]
      exact hchar
  | @unterminated p u quote hslice hopen hstands hquote hnowhere hdead =>
    obtain ⟨before, behind, htext, hchars, hchar, hspan⟩ :=
      exists_split_of_standsAt hstands (by simp [hquote])
    refine trueOf_of_split htext hspan hpos ?_ ?_
    · exact congrArg some hchars
    · show text.toList[charOffset text p]? = some quote
      rw [hchars]
      exact hchar

/-- An expression without a closing token is reported at its opening token. -/
theorem trueOf_unterminated (h : text.toList = before ++ (d.opening.toList ++ behind))
    (hpos : (d.unterminated (extent before) (d.opening.toList ++ behind)).kind.position? =
      some pos) :
    (d.unterminated (extent before) (d.opening.toList ++ behind)).TrueOf text d pos := by
  refine trueOf_of_split h ?_ hpos ?_ ?_
  · rw [extent_append]
    rfl
  · exact congrArg some (chars_extent before)
  · exact ⟨rfl, rfl, String.toList_ofList⟩

/-- A blank expression is reported with both of its tokens. -/
theorem trueOf_empty {blanks : List Char} {stop : Offset} (hblanks : AllBlank blanks)
    (h : text.toList = before ++ ((d.opening.toList ++ (blanks ++ d.closing.toList)) ++ behind))
    (hstop : stop = extent (before ++ (d.opening.toList ++ (blanks ++ d.closing.toList))))
    (hpos : (d.empty (extent before) stop).kind.position? = some pos) :
    (d.empty (extent before) stop).TrueOf text d pos := by
  refine trueOf_of_split h ?_ hpos ?_ ?_
  · rw [hstop]
    rfl
  · exact congrArg some (chars_extent before)
  · exact ⟨rfl, rfl, blanks, hblanks, rfl⟩

/-- A fault that is met where the next expression should be read. -/
theorem trueOf_of_broken (htext : text.toList = front ++ rest)
    (h : nextExpression d (extent front) rest = .broken e) (hpos : e.kind.position? = some pos) :
    e.TrueOf text d pos := by
  unfold nextExpression at h
  split at h
  · cases h
  · next static behind hsplit =>
    obtain ⟨rfl, -⟩ := splitFirst_eq_some_iff.mp hsplit
    -- The opening token stands behind the static text.
    have hopening : text.toList = (front ++ static) ++ (d.opening.toList ++ behind) := by
      rw [htext]
      simp
    have hinside : text.toList = (front ++ static ++ d.opening.toList) ++ behind := by
      rw [hopening, ← List.append_assoc]
    simp only [← extent_append] at h
    -- A fault of the scan, no closing token, or nothing but blanks.
    cases hbody : bodyOf d.closing.toList (extent (front ++ static ++ d.opening.toList)) behind with
    | error e' =>
      rw [hbody] at h
      cases h
      obtain ⟨-, hscan⟩ := bodyOf_eq_error_iff.mp hbody
      exact ((scanBody_eq_error_iff hinside).mp hscan).trueOf hpos d
    | ok body? =>
      rw [hbody] at h
      cases body? with
      | none =>
        cases h
        exact trueOf_unterminated hopening hpos
      | some body =>
        dsimp only at h
        split at h
        · next hblank =>
          cases h
          obtain ⟨hbehind, -, -⟩ := bodyOf_eq_some_iff.mp hbody
          have hslice : text.toList = (front ++ static) ++
              ((d.opening.toList ++ (body.text ++ d.closing.toList)) ++ body.rest) := by
            rw [hopening, hbehind]
            simp
          apply trueOf_empty (allBlank_of_trim_eq_nil hblank) hslice ?_ hpos
          simp only [extent_append, Offset.add_assoc]
        · cases h

/-! ## Main result -/

theorem trueOf_withSource (h : e.TrueOf text d pos) (source : String) :
    (e.withSource source).TrueOf text d pos :=
  ⟨h.ordered, h.within, h.stands⟩

/-- An expression that is refused is refused where it says. -/
theorem Refusal.trueOf {origin : Offset} (h : Refusal Expression.parse text d origin e)
    (hpos : (e.rebase origin).kind.position? = some pos) :
    (e.rebase origin).TrueOf text d pos := by
  obtain ⟨front, raw, behind, hsplit, rfl, hrefused⟩ := h.exists_front
  obtain ⟨u, v, message, hraw, rfl⟩ := Expression.exists_place_of_parse hrefused
  rw [String.toList_ofList] at hraw
  -- The place is behind what stands in front of the expression, and behind `u` in it.
  have hplace : text.toList = (front ++ u) ++ ([] ++ (v ++ behind)) := by
    simp [hsplit, hraw]
  rw [Grammar.rebase_malformed] at hpos ⊢
  refine trueOf_of_split hplace ?_ hpos ?_ trivial
  · rw [List.append_nil]
    rfl
  · exact congrArg some (chars_extent _)

/-- The first failure in the order of a text is where it says. -/
theorem ReadingFault.trueOf (h : ReadingFault .exact Expression.parse text d e)
    (hpos : e.kind.position? = some pos) : e.TrueOf text d pos := by
  cases h with
  | @division blocks rest e hsplit hblocks haccepts hbroken hsegment =>
    exact trueOf_withSource (trueOf_of_broken hsplit hbroken hpos) text
  | @expression origin e _ hrefusal hmoved =>
    rw [Error.moved_exact_iff] at hmoved
    subst hmoved
    exact trueOf_withSource (hrefusal.trueOf hpos) text

/-- **Reported positions are true.**  Where reading a template fails with an error that has a
position, the span lies in the text and on character boundaries, the position is that of the span in
characters, and the characters and tokens that the error names stand where it says. -/
theorem trueOf_of_parseTemplate (h : parseTemplate Expression.parse text d = .error e)
    (hpos : e.kind.position? = some pos) : e.TrueOf text d pos :=
  (readingFault_of_position h hpos).trueOf hpos

/-- A bracket behind a character of two bytes: its span is in bytes, its position is not. -/
theorem trueOf_of_parseTemplate_mismatched :
    parseTemplate Expression.parse "é $\x7b (a] \x7d" .dollar =
        .error ⟨.mismatchedCloser 7 ']' '(' 5, ⟨8, 9⟩, none, some "é $\x7b (a] \x7d"⟩ ∧
      Error.TrueOf "é $\x7b (a] \x7d" .dollar
        ⟨.mismatchedCloser 7 ']' '(' 5, ⟨8, 9⟩, none, some "é $\x7b (a] \x7d"⟩ 7 := by
  have hparse : parseTemplate Expression.parse "é $\x7b (a] \x7d" .dollar =
      .error ⟨.mismatchedCloser 7 ']' '(' 5, ⟨8, 9⟩, none, some "é $\x7b (a] \x7d"⟩ := by
    cbv
  exact ⟨hparse, trueOf_of_parseTemplate hparse rfl⟩

end Interpolation
