import Interpolation.Proofs.ErrorPosition

/-!
# The labels of errors

An error is shown with labels in its source text.  The first one is its span, which is counted in
bytes and covers what it names.  The second one, of brackets that do not match, is the place of the
opening bracket, which is counted in characters, taken as a place in bytes.  The two counts agree as
long as every character in front of the bracket is a single byte; behind any other character the
label stands too far in front, and it may start inside a character.

## Main definitions

- `Label.Covers`: the stretch of a text that a label covers.
- `Label.OfOpener`: the label of an opening bracket, and when it covers the bracket.

## Main results

- `bytes_extent_eq_length_iff`: the two counts agree in front of single bytes only.
- `ReadingFault.exists_opener`: the opening bracket that an error names stands in the text.
- `labels_of_parseTemplate`: the labels of an error, and what they cover.
- `labels_within_character`: a label that covers no character.
-/

namespace Interpolation

/-- What a label covers of a text. -/
def Label.Covers (text : String) (label : Label) (slice : List Char) : Prop :=
  IsSlice text label.start (label.start + label.length) slice

/-- The label of the opening bracket that stands behind `openerPos` characters of a text. -/
structure Label.OfOpener (text : String) (opener : Char) (openerPos : Nat) (label : Label) :
    Prop where
  /-- It names the bracket. -/
  remark : label.text = "'" ++ opener.toString ++ "' opened here"
  /-- The number of characters is taken for one of bytes. -/
  start : label.start = openerPos
  /-- It is as long as a bracket. -/
  length : label.length = 1
  /-- It ends in the text. -/
  within : label.start + label.length ≤ text.utf8ByteSize
  /-- It covers the bracket only behind characters that are single bytes. -/
  covers : ∃ before behind, text.toList = before ++ opener :: behind ∧
    before.length = openerPos ∧
    (label.start = (extent before).bytes ∧ label.Covers text [opener] ↔
      ∀ c ∈ before, c.utf8Size = 1)

variable {text : String} {d : Delimiters} {e : Error} {pos : Nat}

/-! ## Layer A: bytes and characters -/

/-- A text has as many bytes as characters exactly if each of them is a single byte. -/
theorem bytes_extent_eq_length_iff (u : List Char) :
    (extent u).bytes = u.length ↔ ∀ c ∈ u, c.utf8Size = 1 := by
  induction u with
  | nil => simp [Offset.zero]
  | cons c cs ih =>
    have hc : 0 < c.utf8Size := c.utf8Size_pos
    have hcs : cs.length ≤ (extent cs).bytes := length_le_bytes_extent cs
    rw [List.forall_mem_cons, ← ih]
    simp only [List.length_cons, extent_cons, Offset.bytes_add, Offset.ofChar]
    omega

/-- A place in characters, taken as a place in bytes, for the label of an opening bracket. -/
theorem Label.ofOpener {before behind : List Char} {opener : Char}
    (htext : text.toList = before ++ opener :: behind) (hopener : CharRole.of opener = .opener) :
    OfOpener text opener before.length
      ⟨"'" ++ opener.toString ++ "' opened here", before.length, 1⟩ where
  remark := rfl
  start := rfl
  length := rfl
  within := by
    -- There are no more characters than bytes in front of the bracket.
    have hle := length_le_bytes_extent before
    have hbehind := bytes_extent_le_append (before ++ [opener]) behind
    rw [bytes_extent_concat (by simp [hopener]), List.append_assoc, List.singleton_append, ← htext,
      bytes_extent_toList] at hbehind
    dsimp only
    omega
  covers := by
    refine ⟨before, behind, htext, rfl, ?_⟩
    rw [← bytes_extent_eq_length_iff]
    constructor
    · intro h
      exact h.1.symm
    · intro hbytes
      refine ⟨hbytes.symm, before, behind, ?_, hbytes, ?_⟩
      · rw [htext, List.append_assoc, List.singleton_append]
      · rw [bytes_extent_concat (by simp [hopener]), hbytes]

/-! ## Layer B: the opening bracket of a mismatch -/

/-- Only the scan finds brackets that do not match. -/
theorem scanFault_of_broken {front rest : List Char} {found opener : Char} {openerPos : Nat}
    (htext : text.toList = front ++ rest) (h : nextExpression d (extent front) rest = .broken e)
    (hkind : e.kind = .mismatchedCloser pos found opener openerPos) :
    ∃ start, ScanFault text d.closing start e := by
  unfold nextExpression at h
  -- A fault of the scan; the other two are of other kinds.
  split at h
  · cases h
  · next static behind hsplit =>
    obtain ⟨rfl, -⟩ := splitFirst_eq_some_iff.mp hsplit
    have hinside : text.toList = (front ++ static ++ d.opening.toList) ++ behind := by
      rw [htext]
      simp
    simp only [← extent_append] at h
    split at h
    · next e' hbody =>
      cases h
      obtain ⟨-, hscan⟩ := bodyOf_eq_error_iff.mp hbody
      exact ⟨_, (scanBody_eq_error_iff hinside).mp hscan⟩
    · cases h
      cases hkind
    · split at h
      · cases h
        cases hkind
      · cases h

/-- The opening bracket that a fault of the scan names stands in the text. -/
theorem ScanFault.exists_opener {closing : String} {start : Nat} {found opener : Char}
    {openerPos : Nat} (h : ScanFault text closing start e)
    (hkind : e.kind = .mismatchedCloser pos found opener openerPos) :
    ∃ before behind, text.toList = before ++ opener :: behind ∧ openerPos = before.length ∧
      CharRole.of opener = .opener := by
  cases h with
  | mismatched _ _ hstands hopener =>
    -- The kind names the bracket and its place.
    cases hkind
    obtain ⟨before, behind, htext, hchars, -, -⟩ :=
      exists_split_of_standsAt hstands (by simp [hopener])
    exact ⟨before, behind, htext, hchars, hopener⟩
  | unopened => cases hkind
  | unclosed => cases hkind
  | unterminated => cases hkind

/-- The opening bracket that an error of a template names stands in the text. -/
theorem ReadingFault.exists_opener {found opener : Char} {openerPos : Nat}
    (h : ReadingFault .exact Expression.parse text d e)
    (hkind : e.kind = .mismatchedCloser pos found opener openerPos) :
    ∃ before behind, text.toList = before ++ opener :: behind ∧ openerPos = before.length ∧
      CharRole.of opener = .opener := by
  cases h with
  | division hsplit _ _ hbroken _ =>
    obtain ⟨start, hfault⟩ := scanFault_of_broken hsplit hbroken hkind
    exact hfault.exists_opener hkind
  | expression hrefusal hmoved =>
    -- The parser of expressions has no fault of this kind.
    rw [Error.moved_exact_iff] at hmoved
    subst hmoved
    obtain ⟨front, raw, behind, -, -, hrefused⟩ := hrefusal.exists_front
    obtain ⟨u, v, message, -, rfl⟩ := Expression.exists_place_of_parse hrefused
    cases hkind

theorem ReadingFault.source_eq {ε : Type} {add : Addition} {parser : SubParser ε}
    (h : ReadingFault add parser text d e) : e.source = some text := by
  cases h with
  | expression _ hmoved => exact hmoved.source
  | division => rfl

/-! ## Main result -/

/-- The labels of an error with a source text. -/
theorem Error.exists_labels (e : Error) (hsource : e.source = some text) :
    ∃ others, e.labels = some (⟨e.kind.label, e.span.start, e.span.length⟩ :: others) ∧
      ((∀ p found opener openerPos, e.kind ≠ .mismatchedCloser p found opener openerPos) →
        others = []) ∧
      ∀ p found opener openerPos, e.kind = .mismatchedCloser p found opener openerPos →
        others = [⟨"'" ++ opener.toString ++ "' opened here", openerPos, 1⟩] := by
  obtain ⟨kind, span, help, source⟩ := e
  dsimp only at hsource
  subst hsource
  cases kind with
  | mismatchedCloser p found opener openerPos =>
    refine ⟨_, rfl, fun hother => absurd rfl (hother p found opener openerPos), ?_⟩
    intro p' found' opener' openerPos' hkind
    cases hkind
    rfl
  | _ => exact ⟨[], rfl, fun _ => rfl, fun _ _ _ _ hkind => by cases hkind⟩

/-- **The labels of an error.**  An error of a template that has a position comes with its text and
with a label for its span, which covers a stretch of the text.  Of brackets that do not match the
opening one has a label too; there is no other label. -/
theorem labels_of_parseTemplate (h : parseTemplate Expression.parse text d = .error e)
    (hpos : e.kind.position? = some pos) :
    e.source = some text ∧ ∃ primary others, e.labels = some (primary :: others) ∧
      primary.start = e.span.start ∧ primary.start + primary.length = e.span.stop ∧
      (∃ slice, primary.Covers text slice) ∧
      ((∀ p found opener openerPos, e.kind ≠ .mismatchedCloser p found opener openerPos) →
        others = []) ∧
      ∀ p found opener openerPos, e.kind = .mismatchedCloser p found opener openerPos →
        ∃ second, others = [second] ∧ second.OfOpener text opener openerPos := by
  have hfault : ReadingFault .exact Expression.parse text d e := readingFault_of_position h hpos
  have hsource := hfault.source_eq
  have htrue := hfault.trueOf hpos
  have hstop : e.span.start + e.span.length = e.span.stop := Nat.add_sub_cancel' htrue.ordered
  -- The error is true of the text, so its span is a slice.
  have hslice : ∃ slice, IsSlice text e.span.start e.span.stop slice := by
    obtain ⟨before, slice, behind, htext, hstart, hend, -⟩ := htrue.stands
    exact ⟨slice, before, behind, by rw [htext, List.append_assoc], hstart, hend⟩
  have hcovers : ∃ slice, Label.Covers text ⟨e.kind.label, e.span.start, e.span.length⟩ slice := by
    simpa only [Label.Covers, hstop] using hslice
  obtain ⟨others, hlabels, hother, hmismatched⟩ := e.exists_labels hsource
  refine ⟨hsource, _, others, hlabels, rfl, hstop, hcovers, hother, ?_⟩
  intro p found opener openerPos hkind
  obtain ⟨before, behind, htext, rfl, hopener⟩ := hfault.exists_opener hkind
  exact ⟨_, hmismatched p found opener before.length hkind, Label.ofOpener htext hopener⟩

/-- Behind single bytes the label of the parenthesis is where the parenthesis is. -/
theorem labels_of_parseTemplate_bracket :
    parseTemplate Expression.parse "$\x7b (a] \x7d" .dollar =
        .error ⟨.mismatchedCloser 5 ']' '(' 3, ⟨5, 6⟩, none, some "$\x7b (a] \x7d"⟩ ∧
      ∃ primary second, Error.labels
          ⟨.mismatchedCloser 5 ']' '(' 3, ⟨5, 6⟩, none, some "$\x7b (a] \x7d"⟩ =
            some [primary, second] ∧
        second.OfOpener "$\x7b (a] \x7d" '(' 3 := by
  have hparse : parseTemplate Expression.parse "$\x7b (a] \x7d" .dollar =
      .error ⟨.mismatchedCloser 5 ']' '(' 3, ⟨5, 6⟩, none, some "$\x7b (a] \x7d"⟩ := by
    cbv
  obtain ⟨-, primary, others, hlabels, -, -, -, -, hmismatched⟩ :=
    labels_of_parseTemplate hparse rfl
  obtain ⟨second, rfl, hsecond⟩ := hmismatched 5 ']' '(' 3 rfl
  exact ⟨hparse, primary, second, hlabels, hsecond⟩

/-- The label of the parenthesis starts inside the second character, three bytes in front of it. -/
theorem labels_within_character :
    ∃ e, parseTemplate Expression.parse "é日$\x7b(]\x7d" .dollar = .error e ∧
      e.kind = .mismatchedCloser 5 ']' '(' 4 ∧
      e.labels = some [⟨"mismatched closing bracket", 8, 1⟩, ⟨"'(' opened here", 4, 1⟩] ∧
      StandsAt "é日$\x7b(]\x7d" 7 ['('] ∧
      ∀ slice, ¬ Label.Covers "é日$\x7b(]\x7d" ⟨"'(' opened here", 4, 1⟩ slice := by
  refine ⟨⟨.mismatchedCloser 5 ']' '(' 4, ⟨8, 9⟩, none, some "é日$\x7b(]\x7d"⟩, by cbv, rfl, ?_,
    ⟨['é', '日', '$', '\x7b'], [']', '\x7d'], by decide, by decide⟩, ?_⟩
  · decide
  · intro slice hcovers
    have hboundary : cutAt 4 "é日$\x7b(]\x7d".toList = none := by decide
    exact cutAt_eq_none_iff.mp hboundary 5 slice hcovers

end Interpolation
