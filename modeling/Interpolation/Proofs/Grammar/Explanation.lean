import Interpolation.Proofs.Grammar.Sentence
import Mathlib

/-!
# Explanations of texts that are no expressions

A text that is refused is explained by a place and by rules that were attempted there.  All failures
count, also those from which another alternative has recovered, and rules give way to the rules
around them.  Still, the explanation is true: the text up to the place is the beginning of an
expression, and it goes on with each of the rules in some expression.

This rests on one fact: a rule is attempted only where it is possible.  Where an expression is
attempted, every expression can stand, since the parentheses and commas around it can be completed;
and so for the items of a list and the steps of a path.  A failure is recorded at the place where
the rule was attempted, so the account of failures stays true with every step of a recogniser, and
so at the end of its run.

## Main definitions

- `Rule.Matches`, `Rule.PossibleAfter`: the texts of a rule, and where the rule can come next.
- `RoomFor`: every phrase of a kind can stand at a place.
- `Sound`, `Keeps`: a true account of failures, and a recogniser that keeps it true.
- `Explains`: an error that says where a text goes wrong and what is possible there.

## Main results

- `RoomFor.into`, `RoomFor.possibleAfter`: from a phrase to its parts, and to the rules of its text.
- `Sound.record`: a failure keeps the account true.
- `keeps_literal`, `keeps_path`, `keeps_list`, `keeps_group`, `keeps_expr`: the recognisers.
- `exists_explains`: every text that is no expression is explained.
-/

namespace Interpolation.Grammar

open Recogniser

/-! ## Layer A: rules and their texts -/

/-- The texts that a rule matches. -/
def Rule.Matches : Rule → List Char → Prop
  | endOfInput, w => w = []
  | expression, w => ∃ s : Sentence, w = s.written
  | list, w => ∃ lead first others trail, w = (Tree.list lead first others trail).written
  | group, w => ∃ lead inner trail, w = (Tree.group lead inner trail).written
  | string, w => ∃ q : Quoted, w = q.written
  | singleQuoted, w => ∃ text, w = (Quoted.single text).written
  | doubleQuoted, w => ∃ text inert, w = (Quoted.double text inert).written
  | number, w => ∃ n : Numeral, w = n.written
  | boolean, w => ∃ b, w = (Tree.boolean b).written
  | null, w => w = Tree.null.written
  | path, w => ∃ (root : Name) (accesses : List Access),
      w = root.written ++ accesses.flatMap Access.written
  | property, w => ∃ (inner : Gap) (name : Name), w = '.' :: (inner.chars ++ name.written)
  | index, w => ∃ (inner after : Gap) (subscript : List Char),
      ((∃ q : Quoted, subscript = q.written) ∨ ∃ d : Digits, subscript = d.chars) ∧
      w = '[' :: (inner.chars ++ (subscript ++ (after.chars ++ [']'])))
  | integer, w => ∃ d : Digits, w = d.chars
  | identifier, w => ∃ name : Name, w = name.written

/-- What a rule asks of the text in front of and behind what it matches.  Two rules are tied to the
ends of the text.  For the others it is enough that an expression may end behind them: such a text
does not go on with the match, nor with what a keyword must not be followed by. -/
def Rule.Fits (u v : List Char) : Rule → Prop
  | endOfInput => v = []
  | expression => u = [] ∧ v = []
  | _ => Ends v

/-- Some text that a rule matches follows `u` in an expression. -/
def Rule.PossibleAfter (u : List Char) (rule : Rule) : Prop :=
  ∃ w v, rule.Matches w ∧ rule.Fits u v ∧ ∃ s : Sentence, s.written = u ++ (w ++ v)

/-- The text `u` is the beginning of an expression. -/
def Viable (u : List Char) : Prop := ∃ s : Sentence, u <+: s.written

variable {u v w text : List Char} {rule : Rule}

theorem Rule.PossibleAfter.viable (h : rule.PossibleAfter u) : Viable u := by
  obtain ⟨w, v, -, -, s, hs⟩ := h
  exact ⟨s, w ++ v, hs.symm⟩

/-- The end of the text can come next exactly behind an expression. -/
theorem possibleAfter_endOfInput_iff :
    Rule.endOfInput.PossibleAfter u ↔ ∃ s : Sentence, s.written = u := by
  constructor
  · rintro ⟨w, v, rfl, rfl, s, hs⟩
    exact ⟨s, by simpa using hs⟩
  · rintro ⟨s, hs⟩
    exact ⟨[], [], rfl, rfl, s, by simpa using hs⟩

instance : Inhabited Gap := ⟨⟨[], nofun⟩⟩

instance : Inhabited Name := ⟨⟨'x', [], by decide, nofun⟩⟩

instance : Inhabited Digits := ⟨⟨['0'], List.cons_ne_nil _ _, List.forall_mem_singleton.mpr rfl⟩⟩

instance : Inhabited Numeral := ⟨⟨false, default, none⟩⟩

@[simp] theorem chars_default : (default : Gap).chars = [] := rfl

/-! ## Layer B: room for phrases -/

section Room

variable {α β : Type} {written : α → List Char} {written' : β → List Char}

/-- Every phrase of a kind can stand behind `u`, and an expression may end behind it. -/
def RoomFor (written : α → List Char) (u : List Char) : Prop :=
  ∀ a, ∃ v, Ends v ∧ ∃ s : Sentence, s.written = u ++ (written a ++ v)

/-- Where there is room for a phrase, there is room for a part of it behind the text in front of the
part. -/
theorem RoomFor.into (h : RoomFor written u) (front behind : List Char) (whole : β → α)
    (hwhole : ∀ b, written (whole b) = front ++ (written' b ++ behind))
    (hends : ∀ {v}, Ends v → Ends (behind ++ v)) : RoomFor written' (u ++ front) := by
  intro b
  obtain ⟨v, hv, s, hs⟩ := h (whole b)
  refine ⟨behind ++ v, hends hv, s, ?_⟩
  rw [hs, hwhole]
  simp only [List.append_assoc]

theorem RoomFor.into_last (h : RoomFor written u) (front : List Char) (whole : β → α)
    (hwhole : ∀ b, written (whole b) = front ++ written' b) : RoomFor written' (u ++ front) :=
  h.into front [] whole (fun b => by rw [hwhole, List.append_nil]) id

/-- The same for a phrase of another kind that can take the place of the phrase. -/
theorem RoomFor.map (h : RoomFor written u) (whole : β → α)
    (hwhole : ∀ b, written (whole b) = written' b) : RoomFor written' u := by
  rw [← List.append_nil u]
  exact h.into_last [] whole hwhole

/-- Where there is room for a phrase, the rules are possible that match the phrase. -/
theorem RoomFor.possibleAfter (h : RoomFor written u) (a : α) (hmatches : rule.Matches (written a))
    (hfits : ∀ {v}, Ends v → rule.Fits u v) : rule.PossibleAfter u := by
  obtain ⟨v, hv, hs⟩ := h a
  exact ⟨written a, v, hmatches, hfits hv, hs⟩

/-- The same for the rest of a phrase, behind the text in front of it. -/
theorem RoomFor.possibleBehind (h : RoomFor written u) (front : List Char) (a : α)
    (ha : written a = front ++ w) (hmatches : rule.Matches w)
    (hfits : ∀ {v}, Ends v → rule.Fits (u ++ front) v) : rule.PossibleAfter (u ++ front) := by
  obtain ⟨v, hv, s, hs⟩ := h a
  refine ⟨w, v, hmatches, hfits hv, s, ?_⟩
  rw [hs, ha, List.append_assoc, List.append_assoc]

end Room

theorem ends_close {c : Char} (hc : c ∈ closers) (v : List Char) : Ends ([c] ++ v) := ends_cons hc

theorem roomFor_start (lead : Gap) : RoomFor Tree.written lead.chars :=
  fun t => ⟨[], ends_nil, ⟨lead, t, default⟩, rfl⟩

/-- Behind a parenthesis, since it can be closed. -/
theorem RoomFor.inside (h : RoomFor Tree.written u) (lead : Gap) :
    RoomFor Tree.written (u ++ '(' :: lead.chars) :=
  -- Parentheses around the tree, with nothing else in them.
  h.into ('(' :: lead.chars) [')'] (fun t => .group lead t default)
    (fun t => by simp [Tree.written]) fun _ => ends_close (by decide) _

/-- Behind the first item of a list. -/
theorem RoomFor.items (h : RoomFor Tree.written u) (lead : Gap) (first : Tree) :
    RoomFor Items.written (u ++ '(' :: (lead.chars ++ first.written)) :=
  h.into ('(' :: (lead.chars ++ first.written)) [')'] (fun items => .list lead first items default)
    (fun items => by simp [Tree.written]) fun _ => ends_close (by decide) _

/-- Behind a comma. -/
theorem RoomFor.item (h : RoomFor Items.written u) (before lead : Gap) :
    RoomFor Tree.written (u ++ (before.chars ++ ',' :: lead.chars)) :=
  h.into_last (before.chars ++ ',' :: lead.chars) (fun t => .last before lead t)
    fun t => by simp [Items.written]

/-- Behind a further item. -/
theorem RoomFor.moreItems (h : RoomFor Items.written u) (before lead : Gap) (t : Tree) :
    RoomFor Items.written (u ++ (before.chars ++ ',' :: (lead.chars ++ t.written))) :=
  h.into_last (before.chars ++ ',' :: (lead.chars ++ t.written))
    (fun items => .more before lead t items) fun items => by simp [Items.written]

theorem RoomFor.quoted (h : RoomFor Tree.written u) : RoomFor Quoted.written u :=
  h.map Tree.quoted fun _ => rfl

/-- The text of some steps of a path. -/
def accessText (accesses : List Access) : List Char := accesses.flatMap Access.written

theorem RoomFor.accesses (h : RoomFor Tree.written u) {root : Name}
    (hfree : root.written ∉ keywords) : RoomFor accessText (u ++ root.written) :=
  h.into_last root.written (fun accesses => .path root hfree accesses) fun _ => rfl

theorem RoomFor.moreAccesses (h : RoomFor accessText u) (a : Access) :
    RoomFor accessText (u ++ a.written) :=
  h.into_last a.written (fun accesses => a :: accesses) fun _ => rfl

theorem RoomFor.property (h : RoomFor accessText u) (before : Gap) :
    Rule.property.PossibleAfter (u ++ before.chars) :=
  h.possibleBehind before.chars [.property before default default]
    (by simp [accessText, Access.written]) ⟨default, default, rfl⟩ id

theorem RoomFor.propertyName (h : RoomFor accessText u) (before inner : Gap) :
    Rule.identifier.PossibleAfter (u ++ (before.chars ++ '.' :: inner.chars)) :=
  h.possibleBehind (before.chars ++ '.' :: inner.chars) [.property before inner default]
    (by simp [accessText, Access.written]) ⟨default, rfl⟩ id

theorem RoomFor.index (h : RoomFor accessText u) (before : Gap) :
    Rule.index.PossibleAfter (u ++ before.chars) :=
  h.possibleBehind before.chars [.index before default default default]
    (by simp [accessText, Access.written]) ⟨default, default, _, .inr ⟨default, rfl⟩, rfl⟩ id

/-- Behind a bracket, a string and a number. -/
theorem RoomFor.key (h : RoomFor accessText u) (before inner : Gap) :
    RoomFor Quoted.written (u ++ (before.chars ++ '[' :: inner.chars)) :=
  h.into (before.chars ++ '[' :: inner.chars) [']'] (fun q => [.key before inner default q])
    (fun q => by simp [accessText, Access.written]) fun _ => ends_close (by decide) _

theorem RoomFor.indexNumber (h : RoomFor accessText u) (before inner : Gap) :
    RoomFor Digits.chars (u ++ (before.chars ++ '[' :: inner.chars)) :=
  h.into (before.chars ++ '[' :: inner.chars) [']'] (fun d => [.index before inner default d])
    (fun d => by simp [accessText, Access.written]) fun _ => ends_close (by decide) _

/-! ## Layer C: accounts of failures -/

/-- An account of failures is true of a text: up to its place the text is the beginning of an
expression, and it goes on there with each of the rules in some expression. -/
structure Sound (text : List Char) (state : Furthest) : Prop where
  /-- The place splits the text; the text in front of it is viable, and each rule is possible
  there. -/
  explained : ∃ u v, text = u ++ v ∧ state.place = extent u ∧ Viable u ∧
    ∀ rule ∈ state.attempts, rule.PossibleAfter u
  /-- Without any failure the account is the initial one. -/
  attempted : state.attempts = #[] → state.place = .zero

/-- The cursor is behind `u` in the text. -/
abbrev Behind (text u : List Char) (cursor : Cursor) : Prop := Cursor.Reads ⟨.zero, text⟩ u cursor

variable {cursor behind : Cursor} {state : Furthest}

theorem Behind.here_eq (h : Behind text u cursor) : cursor.here = extent u :=
  (Cursor.Reads.here h).trans (Offset.zero_add _)

/-- At one place of a text there is only one text in front. -/
theorem eq_of_extent_eq {u' v' : List Char} (h : u ++ v = u' ++ v')
    (hplace : extent u = extent u') : u = u' := by
  apply List.append_inj_left h
  rw [← chars_extent u, hplace, chars_extent]

theorem sound_initial (text : List Char) : Sound text .initial where
  explained := ⟨[], text, rfl, rfl, ⟨⟨default, .null, default⟩, List.nil_prefix⟩, nofun⟩
  attempted _ := rfl

/-- A failure of a rule where it is possible keeps the account true. -/
theorem Sound.record (h : Sound text state) (hbehind : Behind text u cursor)
    (hrule : rule.PossibleAfter u) (earlier : Nat) :
    Sound text (state.record rule cursor.here earlier) := by
  unfold Furthest.record
  -- The cases of `record`: nothing new, the same place, a place further on.
  split
  · exact h
  · split
    · next hplace =>
      obtain ⟨u', v', htext, hplace', hviable, hrules⟩ := h.explained
      -- Both places are the same, so the text in front of them is.
      have hu : u' = u := eq_of_extent_eq (htext.symm.trans hbehind.rest)
        (by rw [← hplace', hplace, Behind.here_eq hbehind])
      subst hu
      refine ⟨⟨u', v', htext, hplace', hviable, fun other hother => ?_⟩, fun hnone => ?_⟩
      · -- The attempts that stay were true before, and the new one is the rule.
        rcases Array.mem_push.mp hother with hother | rfl
        · apply hrules
          rw [Array.mem_def, Array.toList_shrink] at hother
          exact Array.mem_def.mpr (List.mem_of_mem_take hother)
        · exact hrule
      · simp at hnone
    · split
      · refine ⟨⟨u, cursor.rest, hbehind.rest, Behind.here_eq hbehind, hrule.viable, ?_⟩,
          fun hnone => ?_⟩
        · simpa using hrule
        · simp at hnone
      · exact h

/-- Started from a cursor, a recogniser keeps the account of failures true. -/
def Keeps {α : Type} (text : List Char) (p : Recogniser α) (cursor : Cursor) : Prop :=
  ∀ state, Sound text state → Sound text (p cursor state).2

namespace Keeps

variable {α β : Type} {p q : Recogniser α} {f : α → Recogniser β}

/-- A recogniser that leaves the account alone. -/
theorem of_silent (h : ∀ state, (p cursor state).2 = state) : Keeps text p cursor := by
  intro state hstate
  rw [h]
  exact hstate

theorem pure (a : α) : Keeps text (pure a : Recogniser α) cursor := of_silent fun _ => rfl

theorem symbol (c : Char) : Keeps text (symbol c) cursor :=
  of_silent fun state => by rw [symbol_run]

theorem lexeme (lexer : Lexer) : Keeps text (lexeme lexer) cursor :=
  of_silent fun state => by
    unfold Recogniser.lexeme
    cases lexer cursor.rest <;> rfl

theorem atEnd : Keeps text atEnd cursor :=
  of_silent fun state => by
    unfold Recogniser.atEnd
    split <;> rfl

/-- What is read is the outcome, and the account is true afterwards. -/
theorem exists_run [Lawful p] (hp : Keeps text p cursor) (hstate : Sound text state) :
    ∃ after, p cursor state = (p.outcome cursor, after) ∧ Sound text after := by
  obtain ⟨after, hrun, -⟩ := Lawful.run (p := p) cursor state
  have hkept := hp state hstate
  rw [hrun] at hkept
  exact ⟨after, hrun, hkept⟩

/-- Both parts of a sequence keep the account, the second one where the first one has led. -/
theorem bind [Lawful p] (hp : Keeps text p cursor)
    (hf : ∀ a behind, p.outcome cursor = some (a, behind) → Keeps text (f a) behind) :
    Keeps text (p >>= f) cursor := by
  intro state hstate
  obtain ⟨after, hrun, hafter⟩ := hp.exists_run hstate
  rw [bind_run, hrun]
  cases hout : p.outcome cursor with
  | none => exact hafter
  -- The second part starts where the first one has ended.
  | some found => exact hf found.1 found.2 hout after hafter

/-- The second alternative is tried where the first one has failed. -/
theorem orElse [Lawful p] (hp : Keeps text p cursor)
    (hq : p.outcome cursor = none → Keeps text q cursor) : Keeps text (orElse p q) cursor := by
  intro state hstate
  obtain ⟨after, hrun, hafter⟩ := hp.exists_run hstate
  unfold Recogniser.orElse
  rw [hrun]
  cases hout : p.outcome cursor with
  | none => exact hq hout after hafter
  | some found => exact hafter

/-- A rule that is attempted where it is possible. -/
theorem named (hbehind : Behind text u cursor) (hrule : rule.PossibleAfter u)
    (hp : Keeps text p cursor) : Keeps text (named rule p) cursor := by
  intro state hstate
  have hkept := hp state hstate
  unfold Recogniser.named
  cases hrun : p cursor state with
  | mk found after =>
    rw [hrun] at hkept
    cases found with
    | none => exact hkept.record hbehind hrule _
    | some found => exact hkept

/-- A repetition, with what holds in front of each phrase of it. -/
theorem many [Lawful p] (inv : Cursor → Prop) (hinv : inv cursor)
    (hp : ∀ {cursor}, inv cursor → Keeps text p cursor)
    (hstep : ∀ {cursor a behind}, inv cursor → p.outcome cursor = some (a, behind) → inv behind) :
    Keeps text (many p) cursor := by
  have hrepeated (limit : Nat) : ∀ {cursor}, inv cursor → Keeps text (repeated p limit) cursor := by
    induction limit with
    | zero => exact fun _ => pure []
    | succ limit ih =>
      intro cursor hinv state hstate
      obtain ⟨after, hrun, hafter⟩ := (hp hinv).exists_run hstate
      rw [repeated_run, hrun]
      cases hout : p.outcome cursor with
      | none => exact hafter
      | some found =>
        have hothers := (ih (hstep hinv hout)).bind
          (f := fun others => Pure.pure (found.1 :: others)) fun _ _ _ => pure _
        exact hothers after hafter
  exact hrepeated _ hinv

/-- Behind spaces that are skipped. -/
theorem space_bind {f : Unit → Recogniser β} (hbehind : Behind text u cursor)
    (hf : ∀ gap {behind}, Behind text (u ++ Gap.chars gap) behind → Keeps text (f ()) behind) :
    Keeps text (space >>= f) cursor := by
  apply bind (of_silent fun _ => rfl)
  intro _ behind h
  obtain ⟨gap, hgap⟩ := exists_gap h
  exact hf gap (hbehind.trans hgap)

/-- Behind a symbol that opens a phrase and the spaces that are skipped. -/
theorem open_bind {c : Char} {f : Unit → Recogniser β} (hbehind : Behind text u cursor)
    (hf : ∀ gap {behind}, Behind text (u ++ c :: Gap.chars gap) behind → Keeps text (f ()) behind) :
    Keeps text (Recogniser.symbol c >>= fun _ => space >>= f) cursor := by
  apply (symbol c).bind
  intro _ _ hopen
  apply space_bind (hbehind.trans (outcome_symbol_iff.mp hopen))
  intro gap _ hgap
  rw [List.append_assoc, List.singleton_append] at hgap
  exact hf gap hgap

theorem close_bind {c : Char} {f : Unit → Recogniser β} (hf : ∀ behind, Keeps text (f ()) behind) :
    Keeps text (space >>= fun _ => Recogniser.symbol c >>= f) cursor :=
  bind (of_silent fun _ => rfl) fun _ _ _ => (symbol c).bind fun _ behind _ => hf behind

end Keeps

/-! ## Layer D: literals and paths -/

theorem keeps_token {lexer : Lexer} (hbehind : Behind text u cursor)
    (hrule : rule.PossibleAfter u) : Keeps text (token rule lexer) cursor :=
  (Keeps.lexeme lexer).named hbehind hrule

/-- Where every string literal can stand, each of the three rules for them is possible. -/
theorem keeps_quotedText (hbehind : Behind text u cursor) (hroom : RoomFor Quoted.written u) :
    Keeps text quotedText cursor := by
  -- Any literal serves to show that a rule is possible.
  have hstring : Rule.string.PossibleAfter u := hroom.possibleAfter (.single []) ⟨_, rfl⟩ id
  have hsingle : Rule.singleQuoted.PossibleAfter u :=
    hroom.possibleAfter (.single []) ⟨_, rfl⟩ id
  have hdouble : Rule.doubleQuoted.PossibleAfter u :=
    hroom.possibleAfter (.double [] List.not_mem_nil) ⟨_, _, rfl⟩ id
  apply Keeps.named hbehind hstring
  apply Keeps.orElse
  · exact (keeps_token hbehind hsingle).bind fun _ _ _ => .pure _
  · intro _
    exact (keeps_token hbehind hdouble).bind fun _ _ _ => .pure _

/-- Where every expression can stand, each kind of literal is possible. -/
theorem keeps_literal (hbehind : Behind text u cursor) (hroom : RoomFor Tree.written u) :
    Keeps text literal cursor := by
  have hnumber : Rule.number.PossibleAfter u := hroom.possibleAfter (.number default) ⟨_, rfl⟩ id
  have hboolean : Rule.boolean.PossibleAfter u := hroom.possibleAfter (.boolean true) ⟨_, rfl⟩ id
  have hnull : Rule.null.PossibleAfter u := hroom.possibleAfter .null rfl id
  apply Keeps.orElse
  · exact (keeps_quotedText hbehind hroom.quoted).bind fun _ _ _ => .pure _
  · intro _
    apply Keeps.orElse
    · exact (keeps_token hbehind hnumber).bind fun _ _ _ => .pure _
    · intro _
      apply Keeps.orElse
      · exact (keeps_token hbehind hboolean).bind fun _ _ _ => .pure _
      · intro _
        exact (keeps_token hbehind hnull).bind fun _ _ _ => .pure _

theorem keeps_name (hbehind : Behind text u cursor) (hrule : Rule.identifier.PossibleAfter u) :
    Keeps text name cursor :=
  (keeps_token hbehind hrule).bind fun _ _ _ => .pure _

/-- Between brackets both a string and a number are possible. -/
theorem keeps_subscript (hbehind : Behind text u cursor) (hkey : RoomFor Quoted.written u)
    (hnumber : RoomFor Digits.chars u) : Keeps text subscript cursor := by
  have hinteger : Rule.integer.PossibleAfter u := hnumber.possibleAfter default ⟨_, rfl⟩ id
  apply Keeps.orElse
  · exact (keeps_quotedText hbehind hkey).bind fun _ _ _ => .pure _
  · intro _
    apply Keeps.bind (.of_silent fun _ => rfl)
    intro _ _ hplace
    cases hplace
    exact (keeps_token hbehind hinteger).bind fun _ _ _ => .pure _

/-- A step by name keeps the account where every step can follow. -/
theorem keeps_property {before : Gap} (hbehind : Behind text (u ++ before.chars) cursor)
    (hroom : RoomFor accessText u) : Keeps text property cursor := by
  apply Keeps.named hbehind (hroom.property before)
  apply Keeps.open_bind hbehind
  intro inner _ hinner
  rw [List.append_assoc] at hinner
  exact (keeps_name hinner (hroom.propertyName before inner)).bind fun _ _ _ => .pure _

/-- A step in brackets keeps the account where every step can follow. -/
theorem keeps_index {before : Gap} (hbehind : Behind text (u ++ before.chars) cursor)
    (hroom : RoomFor accessText u) : Keeps text index cursor := by
  rw [index_eq]
  apply Keeps.named hbehind (hroom.index before)
  apply Keeps.open_bind hbehind
  intro inner _ hinner
  rw [List.append_assoc] at hinner
  apply (keeps_subscript hinner (hroom.key before inner) (hroom.indexNumber before inner)).bind
  intro _ _ _
  exact Keeps.close_bind fun _ => .pure _

theorem keeps_access (hbehind : Behind text u cursor) (hroom : RoomFor accessText u) :
    Keeps text access cursor := by
  apply Keeps.space_bind hbehind
  intro before _ hbefore
  exact (keeps_property hbefore hroom).orElse fun _ => keeps_index hbefore hroom

/-- A path is attempted where no literal is, so its root is none of the words that are no
variables, and every step can follow. -/
theorem keeps_path (hbehind : Behind text u cursor) (hroom : RoomFor Tree.written u)
    (hliteral : literal.outcome cursor = none) : Keeps text path cursor := by
  -- A path with a root that is no keyword shows that both rules are possible.
  have hfree : (default : Name).written ∉ keywords := by decide
  have hpath : Rule.path.PossibleAfter u :=
    hroom.possibleAfter (.path default hfree []) ⟨_, _, rfl⟩ id
  have hidentifier : Rule.identifier.PossibleAfter u :=
    hroom.possibleAfter (.path default hfree []) ⟨default, List.append_nil _⟩ id
  rw [path_eq]
  apply Keeps.named hbehind hpath
  apply (keeps_name hbehind hidentifier).bind
  intro _ middle hword
  obtain ⟨root, -, hroot, hstops⟩ := exists_word hword
  apply Keeps.bind ?_ fun _ _ _ => .pure _
  -- The invariant of the repetition: there is room for further steps behind what has been read.
  apply Keeps.many fun cursor => ∃ u, Behind text u cursor ∧ RoomFor accessText u
  · exact ⟨_, hbehind.trans hroot, hroom.accesses (notMem_keywords hroot hstops hliteral)⟩
  · rintro cursor ⟨u, hbehind, hroom⟩
    exact keeps_access hbehind hroom
  · rintro cursor step behind ⟨u, hbehind, hroom⟩ hstep
    obtain ⟨a, -, ha⟩ := exists_access hstep
    exact ⟨_, hbehind.trans ha, hroom.moreAccesses a⟩

/-! ## Layer E: parentheses -/

/-- Started where every expression can stand, a recogniser keeps the account of failures true. -/
def KeepsTrees (text : List Char) (e : Recogniser Phrase) : Prop :=
  ∀ {u cursor}, Behind text u cursor → RoomFor Tree.written u → Keeps text e cursor

variable {e : Recogniser Phrase} [Lawful e]

omit [Lawful e] in
/-- An item keeps the account where every run of items can follow. -/
theorem keeps_item (he : KeepsTrees text e) (hbehind : Behind text u cursor)
    (hroom : RoomFor Items.written u) : Keeps text (item e) cursor := by
  apply Keeps.space_bind hbehind
  intro before _ hbefore
  apply Keeps.open_bind hbefore
  intro lead _ hlead
  rw [List.append_assoc] at hlead
  exact he hlead (hroom.item before lead)

/-- Behind an item there is room for further ones. -/
theorem exists_roomFor_item (hreads : ReadsTrees e) (hbehind : Behind text u cursor)
    (hroom : RoomFor Items.written u) {phrase : Phrase}
    (h : (item e).outcome cursor = some (phrase, behind)) :
    ∃ u, Behind text u behind ∧ RoomFor Items.written u := by
  obtain ⟨before, lead, t, -, ht⟩ := exists_item hreads h
  exact ⟨_, hbehind.trans ht, hroom.moreItems before lead t⟩

/-- A list keeps the account where every expression can stand. -/
theorem keeps_list (he : KeepsTrees text e) (hreads : ReadsTrees e)
    (hbehind : Behind text u cursor) (hroom : RoomFor Tree.written u) :
    Keeps text (list e) cursor := by
  -- The shortest list shows that the rule is possible.
  have hlist : Rule.list.PossibleAfter u :=
    hroom.possibleAfter (.list default .null (.last default default .null) default)
      ⟨_, _, _, _, rfl⟩ id
  rw [list_eq]
  apply Keeps.named hbehind hlist
  apply Keeps.open_bind hbehind
  intro lead _ hlead
  apply (he hlead (hroom.inside lead)).bind
  intro _ _ hfirst
  obtain ⟨first, -, hfirst⟩ := hreads hfirst
  have hitems := hlead.trans hfirst
  rw [List.append_assoc, List.cons_append] at hitems
  apply (keeps_item he hitems (hroom.items lead first)).bind
  intro _ _ hsecond
  apply Keeps.bind
  · -- The same invariant for items: behind each there is room for further ones.
    apply Keeps.many fun cursor => ∃ u, Behind text u cursor ∧ RoomFor Items.written u
    · exact exists_roomFor_item hreads hitems (hroom.items lead first) hsecond
    · rintro cursor ⟨u, hbehind, hroom⟩
      exact keeps_item he hbehind hroom
    · rintro cursor phrase behind ⟨u, hbehind, hroom⟩ hitem
      exact exists_roomFor_item hreads hbehind hroom hitem
  · intro _ _ _
    exact Keeps.close_bind fun _ => .pure _

/-- A group keeps the account where every expression can stand. -/
theorem keeps_group (he : KeepsTrees text e) (hbehind : Behind text u cursor)
    (hroom : RoomFor Tree.written u) : Keeps text (group e) cursor := by
  have hgroup : Rule.group.PossibleAfter u :=
    hroom.possibleAfter (.group default .null default) ⟨_, _, _, rfl⟩ id
  apply Keeps.named hbehind hgroup
  apply Keeps.open_bind hbehind
  intro lead _ hlead
  apply (he hlead (hroom.inside lead)).bind
  intro _ _ _
  exact Keeps.close_bind fun _ => .pure _

/-- Whatever the depth, expressions keep the account where every expression can stand. -/
theorem keeps_expr (text : List Char) (depth : Nat) : KeepsTrees text (expr depth) := by
  -- On the depth; a path is tried last, where no literal stands.
  induction depth with
  | zero => exact fun _ _ => .of_silent fun _ => rfl
  | succ depth ih =>
    intro u cursor hbehind hroom
    apply (keeps_list ih (exists_tree depth) hbehind hroom).orElse
    intro _
    apply (keeps_group ih hbehind hroom).orElse
    intro _
    exact (keeps_literal hbehind hroom).orElse (keeps_path hbehind hroom)

/-! ## Layer F: whole texts -/

/-- The recogniser of an expression with the spaces around it, up to the end of the text. -/
def whole (depth : Nat) : Recogniser Phrase := do
  space
  let phrase ← expr depth
  space
  named .endOfInput atEnd
  return phrase

theorem expression_eq (depth : Nat) : expression depth = named .expression (whole depth) := rfl

instance (depth : Nat) : Lawful (whole depth) := by
  unfold whole
  infer_instance

theorem behind_start (text : List Char) : Behind text [] ⟨.zero, text⟩ := .nil _

/-- The body keeps the account from the start of the text on. -/
theorem keeps_whole (text : List Char) (depth : Nat) :
    Keeps text (whole depth) ⟨.zero, text⟩ := by
  apply Keeps.space_bind (behind_start text)
  intro lead _ hlead
  apply (keeps_expr text depth hlead (roomFor_start lead)).bind
  intro _ _ htree
  obtain ⟨t, -, ht⟩ := exists_tree depth htree
  apply Keeps.space_bind (hlead.trans ht)
  intro trail _ htrail
  -- What has been read is a sentence, so the text may end here.
  have hend : Rule.endOfInput.PossibleAfter (lead.chars ++ t.written ++ trail.chars) :=
    possibleAfter_endOfInput_iff.mpr ⟨⟨lead, t, trail⟩, (List.append_assoc ..).symm⟩
  exact (Keeps.atEnd.named htrail hend).bind fun _ _ _ => .pure _

/-- A failure at the start of the text names a rule, unless one further on has been named. -/
theorem attempts_record_ne_empty (h : state.attempts = #[] → state.place = .zero) (rule : Rule)
    (earlier : Nat) : (state.record rule .zero earlier).attempts ≠ #[] := by
  unfold Furthest.record
  split
  · -- One attempt has been added at the start, so there is one.
    next hcount =>
    intro hnone
    simp [Furthest.countAt, h hnone, hnone] at hcount
  · split
    · simp
    · next hplace =>
      split
      · simp
      · exact fun hnone => hplace (h hnone)

/-- Where a text is refused, the account of failures is true of it, and some rule has failed. -/
theorem sound_of_recognise {furthest : Furthest} (h : recognise text = .error furthest) :
    Sound text furthest ∧ furthest.attempts ≠ #[] := by
  obtain ⟨after, hrun, hafter⟩ :=
    (keeps_whole text (text.length + 1)).exists_run (sound_initial text)
  -- The rule of the whole text is possible at its start.
  have hexpression : Rule.expression.PossibleAfter [] :=
    ⟨_, [], ⟨⟨default, .null, default⟩, rfl⟩, ⟨rfl, rfl⟩, _, (List.append_nil _).symm⟩
  rw [recognise, expression_eq] at h
  unfold named at h
  rw [hrun] at h
  cases hout : (whole (text.length + 1)).outcome ⟨.zero, text⟩ with
  | some found =>
    rw [hout] at h
    cases h
  | none =>
    rw [hout] at h
    cases h
    exact ⟨hafter.record (behind_start text) hexpression _,
      attempts_record_ne_empty hafter.attempted _ _⟩

theorem mem_all (rule : Rule) : rule ∈ Rule.all := by
  cases rule <;> decide

theorem mem_expected_iff {furthest : Furthest} :
    rule ∈ furthest.expected ↔ rule ∈ furthest.attempts := by
  simp [Furthest.expected, mem_all]

/-- An error says that a text goes wrong behind `before` and that one of `rules` is expected there,
and so it is. -/
structure Explains (e : Error) (text : String) (before : List Char) (rules : List Rule) :
    Prop where
  /-- The place is a place of the text. -/
  stands : before <+: text.toList
  /-- The position counts the characters in front, and the message names the rules. -/
  kind : e.kind =
    .malformedExpression before.length ("expected " ++ enumerate (rules.map Rule.name))
  /-- The span is empty and counts the bytes in front. -/
  span : e.span = ⟨(extent before).bytes, (extent before).bytes⟩
  /-- The text in front is the beginning of an expression. -/
  viable : Viable before
  /-- Some rule is named. -/
  named : rules ≠ []
  /-- Each rule that is named can come next. -/
  possible : ∀ rule ∈ rules, rule.PossibleAfter before
  /-- If the end of the text is named, the text in front is an expression. -/
  accepted : .endOfInput ∈ rules → ∃ s : Sentence, s.written = before

/-- **Explanations are true.**  A text that is no expression is refused with an error whose empty
span and whose position are those of a place in the text, up to which the text is the beginning of
an expression; and it goes on there with each of the rules that the error names in some
expression. -/
theorem exists_explains {text : String} (h : ∀ s : Sentence, s.written ≠ text.toList) :
    ∃ e before rules, parseNode text = .error e ∧ Explains e text before rules := by
  cases hrecognise : recognise text.toList with
  -- A text that is recognised is an expression.
  | ok phrase =>
    obtain ⟨s, hs, -⟩ := recognise_eq_ok_iff.mp hrecognise
    exact absurd hs (h s)
  | error furthest =>
    obtain ⟨hsound, hattempts⟩ := sound_of_recognise hrecognise
    obtain ⟨before, behind, htext, hplace, hviable, hrules⟩ := hsound.explained
    refine ⟨malformed furthest.place furthest.message, before, furthest.expected, ?_, ?_⟩
    · rw [parseNode, hrecognise]
    · constructor
      case stands => exact ⟨behind, htext.symm⟩
      case kind =>
        rw [hplace, malformed, chars_extent]
        rfl
      case span =>
        rw [hplace]
        rfl
      case viable => exact hviable
      case named =>
        obtain ⟨rule, hrule⟩ := Array.exists_mem_of_ne_empty _ hattempts
        exact List.ne_nil_of_mem (mem_expected_iff.mpr hrule)
      case possible => exact fun rule hrule => hrules rule (mem_expected_iff.mp hrule)
      case accepted =>
        exact fun hend => possibleAfter_endOfInput_iff.mp (hrules _ (mem_expected_iff.mp hend))

/-- A tilde behind a space, where only a further step of the path is possible. -/
theorem exists_explains_step :
    (∀ s : Sentence, s.written ≠ "(a['é'] ~".toList) ∧
      parseNode "(a['é'] ~" =
        .error ⟨.malformedExpression 8 "expected property or index", ⟨9, 9⟩, none, none⟩ ∧
      ∃ before rules,
        Explains ⟨.malformedExpression 8 "expected property or index", ⟨9, 9⟩, none, none⟩
          "(a['é'] ~" before rules := by
  have hrefused : (recognise "(a['é'] ~".toList).isOk = false := by cbv
  -- That the text is no expression is read off the recogniser.
  have hnone (s : Sentence) : s.written ≠ "(a['é'] ~".toList := by
    intro hs
    rw [recognise_eq_ok_iff.mpr ⟨s, hs, rfl⟩] at hrefused
    cases hrefused
  have hparse : parseNode "(a['é'] ~" =
      .error ⟨.malformedExpression 8 "expected property or index", ⟨9, 9⟩, none, none⟩ := by
    cbv
  obtain ⟨e, before, rules, he, hexplains⟩ := exists_explains hnone
  rw [hparse] at he
  cases he
  exact ⟨hnone, hparse, before, rules, hexplains⟩

end Interpolation.Grammar
