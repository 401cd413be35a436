import Interpolation.Proofs.Grammar.Soundness

/-!
# The syntax of expressions against its recognisers

The recognisers choose in order and never give back what they have read.  Nothing is lost by that:
the text of a tree is read back as the tree, wherever an expression may end.  First characters keep
the choices apart, except that a comma tells a list from a group, and the whole word a keyword from
a name.  No repetition goes too far, since what may follow an expression starts no further step,
item or token.

## Main definitions

- `Ends`: what follows is nothing, or a symbol that stands behind an expression.
- `Tree.IsLiteral`, `Tree.IsAtom`: the trees of single tokens, and those without parentheses.

## Main results

- `outcome_literal`, `outcome_path`, `outcome_group`, `outcome_list`: the phrases, one by one.
- `Tree.outcome_expr`, `Items.exists_chain`: the text of a tree is read as that tree.
-/

namespace Interpolation.Grammar

open Recogniser

variable {cursor behind : Cursor}

/-! ## Layer A: where an expression ends -/

/-- The symbols that stand behind an expression. -/
def closers : List Char := [',', ')', ']']

/-- Where an expression may end: spaces follow, and then the end of the text or such a symbol. -/
def Ends (rest : List Char) : Prop := ∀ c ∈ (rest.dropWhile isSpace).head?, c ∈ closers

variable {rest : List Char} {test : Char → Bool} {c : Char}

theorem ends_nil : Ends [] := nofun

theorem ends_cons (hc : c ∈ closers) : Ends (c :: rest) := by
  have hspace : isSpace c = false := by
    simp only [closers, List.mem_cons, List.not_mem_nil, or_false] at hc
    rcases hc with rfl | rfl | rfl <;> decide
  simpa [Ends, hspace] using hc

theorem ends_gap_iff (gap : Gap) : Ends (gap.chars ++ rest) ↔ Ends rest := by
  rw [Ends, List.dropWhile_append_of_pos gap.spaces, Ends]

/-- Where an expression may end, nothing goes on that neither space nor such a symbol goes on with.
-/
theorem Ends.stops (h : Ends rest) (htest : Excludes (spaces ++ closers) test) :
    Stops test rest := by
  cases rest with
  | nil => exact stops_nil test
  | cons c cs =>
    rw [stops_cons_iff]
    by_cases hc : isSpace c = true
    · exact htest c (List.mem_append_left closers (isSpace_iff.mp hc))
    · exact htest c (List.mem_append_right spaces (h c (by simp [hc])))

theorem Ends.stops_dropWhile (h : Ends rest) (hclosers : Excludes closers test) :
    Stops test (rest.dropWhile isSpace) :=
  fun c hc => hclosers c (h c hc)

theorem ends_of_close {gap : Gap} {middle : Cursor} (hc : c ∈ closers)
    (hclose : middle.Reads (gap.chars ++ [c]) behind) : Ends middle.rest := by
  rw [hclose.rest, List.append_assoc, ends_gap_iff]
  exact ends_cons hc

/-! ## Layer B: paths -/

theorem Name.stops_space {n : Name} (h : cursor.Reads n.written behind) :
    Stops isSpace cursor.rest :=
  h.stops (isSpace_eq_false (by decide) n.starts)

theorem Quoted.stops_space {q : Quoted} (h : cursor.Reads q.written behind) :
    Stops isSpace cursor.rest := by
  cases q <;> exact h.stops (by decide)

theorem Digits.stops_space {d : Digits} (h : cursor.Reads d.chars behind) :
    Stops isSpace cursor.rest := by
  obtain ⟨c, cs, hcons, hc⟩ := d.exists_cons
  rw [hcons] at h
  exact h.stops (isSpace_eq_false (by decide) hc)

theorem outcome_space_of_cons {gap : Gap} {middle : Cursor} {u : List Char}
    (hgap : cursor.Reads gap.chars middle) (hnext : middle.Reads (c :: u) behind)
    (hc : isSpace c = false) : space.outcome cursor = some ((), middle) :=
  outcome_space hgap (hnext.stops hc)

/-- A step by name is read where the name does not go on. -/
theorem outcome_property {inner : Gap} {n : Name}
    (hread : cursor.Reads ('.' :: (inner.chars ++ n.written)) behind)
    (hrest : Stops isNameChar behind.rest) :
    property.outcome cursor = some (⟨.property (String.ofList n.written), []⟩, behind) := by
  obtain ⟨c₁, hpoint, h⟩ := Cursor.Reads.cons_iff.mp hread
  obtain ⟨c₂, hinner, hname⟩ := Cursor.Reads.append_iff.mp h
  have hspace := outcome_space hinner (Name.stops_space hname)
  simp only [property, outcome_named, outcome_bind, outcome_pure, outcome_symbol_iff.mpr hpoint,
    hspace, outcome_name n hname hrest, Option.bind_some]

theorem outcome_property_eq_none (h : Stops (· = '.') cursor.rest) :
    property.outcome cursor = none := by
  simp only [property, outcome_named, outcome_bind, outcome_symbol_eq_none h, Option.bind_none]

theorem outcome_index_eq_none (h : Stops (· = '[') cursor.rest) : index.outcome cursor = none := by
  simp only [index, outcome_named, outcome_bind, outcome_symbol_eq_none h, Option.bind_none]

/-- An index is what stands between its brackets. -/
theorem outcome_index {inner after : Gap} {inside middle : Cursor} {step : Step}
    (hopen : cursor.Reads ('[' :: inner.chars) inside) (hinside : Stops isSpace inside.rest)
    (hstep : subscript.outcome inside = some (step, middle))
    (hclose : middle.Reads (after.chars ++ [']']) behind) :
    index.outcome cursor = some (step, behind) := by
  obtain ⟨c₁, hsymbol, hinner⟩ := Cursor.Reads.cons_iff.mp hopen
  obtain ⟨c₂, hafter, hlast⟩ := Cursor.Reads.append_iff.mp hclose
  have hspace := outcome_space_of_cons hafter hlast (by decide)
  rw [index_eq, outcome_named, outcome_bind, outcome_symbol_iff.mpr hsymbol, Option.bind_some,
    outcome_bind, outcome_space hinner hinside, Option.bind_some, outcome_bind, hstep,
    Option.bind_some, outcome_bind, hspace, Option.bind_some, outcome_bind,
    outcome_symbol_iff.mpr hlast]
  rfl

theorem outcome_subscript_key (q : Quoted) (hread : cursor.Reads q.written behind)
    (hends : Ends behind.rest) :
    subscript.outcome cursor = some (⟨.key q.value, []⟩, behind) := by
  have hquoted := outcome_quotedText q hread (hends.stops (by decide))
  simp only [subscript, outcome_orElse, outcome_bind, outcome_pure, hquoted, Option.bind_some,
    Option.some_or]

/-- Digits in brackets are a number, whose place is kept. -/
theorem outcome_subscript_number (d : Digits) (hread : cursor.Reads d.chars behind)
    (hends : Ends behind.rest) :
    subscript.outcome cursor = some (⟨.index (digitsValue d.chars),
      [⟨cursor.here, digitsValue d.chars⟩]⟩, behind) := by
  have hquoted : quotedText.outcome cursor = none := by
    obtain ⟨c, cs, hcons, hc⟩ := d.exists_cons
    apply outcome_quotedText_eq_none
    rw [hread.rest, hcons]
    exact stops_cons_iff.mpr (isQuote_eq_false hc (by decide) (by decide))
  have htoken : (token .integer digits).outcome cursor = some (d.chars, behind) := by
    rw [outcome_token_iff, hread.rest]
    exact ⟨digits_chars d (hends.stops (by decide)), hread⟩
  simp only [subscript, indexNumber, outcome_orElse, outcome_bind, outcome_pure, outcome_place,
    hquoted, htoken, Option.bind_some, Option.bind_none, Option.none_or]

/-- A step that starts with a bracket is an index. -/
theorem outcome_access_of_index {before : Gap} {middle : Cursor} {u : List Char}
    (hbefore : cursor.Reads before.chars middle) (hindex : middle.Reads ('[' :: u) behind) :
    access.outcome cursor = index.outcome middle := by
  have hproperty : property.outcome middle = none :=
    outcome_property_eq_none (hindex.stops (by decide))
  simp only [access, outcome_orElse, outcome_bind, hproperty,
    outcome_space_of_cons hbefore hindex (by decide), Option.bind_some, Option.none_or]

/-- A step is read as it is written. -/
theorem outcome_access (a : Access) (hread : cursor.Reads a.written behind)
    (hrest : Stops isNameChar behind.rest) :
    access.outcome cursor = some (a.step cursor.here, behind) := by
  cases a with
  -- A step by name comes first in the choice; the other two start with a bracket.
  | property before inner n =>
    obtain ⟨c₁, hbefore, hproperty⟩ := Cursor.Reads.append_iff.mp hread
    simp only [access, outcome_orElse, outcome_bind, outcome_property hproperty hrest,
      outcome_space_of_cons hbefore hproperty (by decide), Option.bind_some, Option.some_or]
    rfl
  | key before inner after q =>
    obtain ⟨c₁, hbefore, hindex⟩ := Cursor.Reads.append_iff.mp hread
    obtain ⟨inside, hopen, h⟩ : ∃ inside, c₁.Reads ('[' :: inner.chars) inside ∧
        inside.Reads (q.written ++ (after.chars ++ [']'])) behind :=
      Cursor.Reads.append_iff.mp hindex
    obtain ⟨middle, hkey, hclose⟩ := Cursor.Reads.append_iff.mp h
    have hstep := outcome_subscript_key q hkey (ends_of_close (by decide) hclose)
    rw [outcome_access_of_index hbefore hindex,
      outcome_index hopen (Quoted.stops_space hkey) hstep hclose]
    rfl
  | index before inner after d =>
    obtain ⟨c₁, hbefore, hindex⟩ := Cursor.Reads.append_iff.mp hread
    obtain ⟨inside, hopen, h⟩ : ∃ inside, c₁.Reads ('[' :: inner.chars) inside ∧
        inside.Reads (d.chars ++ (after.chars ++ [']'])) behind :=
      Cursor.Reads.append_iff.mp hindex
    obtain ⟨middle, hdigits, hclose⟩ := Cursor.Reads.append_iff.mp h
    have hstep := outcome_subscript_number d hdigits (ends_of_close (by decide) hclose)
    rw [outcome_access_of_index hbefore hindex,
      outcome_index hopen (Digits.stops_space hdigits) hstep hclose, (hbefore.trans hopen).here]
    rfl

/-- Behind an expression no further step is read. -/
theorem outcome_access_eq_none (h : Ends cursor.rest) : access.outcome cursor = none := by
  -- The spaces are skipped before either kind of step is tried.
  let middle := cursor.advance (cursor.rest.takeWhile isSpace) (cursor.rest.dropWhile isSpace)
  have hproperty : property.outcome middle = none :=
    outcome_property_eq_none (h.stops_dropWhile (by decide))
  have hindex : index.outcome middle = none :=
    outcome_index_eq_none (h.stops_dropWhile (by decide))
  simp only [access, space, outcome_orElse, outcome_bind, outcome_skipWhile, Option.bind_some]
  rw [hproperty, hindex, Option.none_or]

/-- In front of space and a character nothing goes on that goes on with neither of them. -/
theorem stops_gap (gap : Gap) (hspaces : Excludes spaces test) (hc : test c = false) :
    Stops test (gap.chars ++ c :: rest) := by
  cases hchars : gap.chars with
  | nil => exact stops_cons_iff.mpr hc
  | cons d ds =>
    have hd : isSpace d = true := gap.spaces d (by simp [hchars])
    exact stops_cons_iff.mpr (hspaces d (isSpace_iff.mp hd))

/-- Neither a step nor what follows an expression goes on with a name. -/
theorem stops_accesses (accesses : List Access) {rest : List Char} (h : Ends rest) :
    Stops isNameChar (accesses.flatMap Access.written ++ rest) := by
  cases accesses with
  | nil => exact h.stops (by decide)
  | cons a accesses =>
    -- Each kind of step starts with space and a symbol, and neither belongs to a name.
    cases a <;>
      simp only [List.flatMap_cons, Access.written, List.append_assoc, List.cons_append] <;>
      exact stops_gap _ (by decide) (by decide)

/-- The steps of a path are read one after another, up to where an expression may end. -/
theorem chain_accesses (accesses : List Access) {cursor behind : Cursor}
    (hread : cursor.Reads (accesses.flatMap Access.written) behind) (hends : Ends behind.rest) :
    Chain access cursor (Access.steps cursor.here accesses) behind := by
  -- Along the steps: a name in one of them must not run into the next.
  induction accesses generalizing cursor with
  | nil =>
    rw [List.flatMap_nil, Cursor.Reads.nil_iff] at hread
    subst hread
    exact .stop (outcome_access_eq_none hends)
  | cons a accesses ih =>
    rw [List.flatMap_cons] at hread
    obtain ⟨middle, ha, hothers⟩ := Cursor.Reads.append_iff.mp hread
    have hstops : Stops isNameChar middle.rest := by
      rw [hothers.rest]
      exact stops_accesses accesses hends
    have hchain := ih hothers
    rw [ha.here] at hchain
    exact .step (outcome_access a ha hstops) (ha.length_lt a.written_ne_nil) hchain

/-- A path is read as it is written. -/
theorem outcome_path {root : Name} {accesses : List Access}
    (hread : cursor.Reads (root.written ++ accesses.flatMap Access.written) behind)
    (hends : Ends behind.rest) :
    path.outcome cursor = some (.path (String.ofList root.written)
      (Access.steps (cursor.here + extent root.written) accesses), behind) := by
  obtain ⟨middle, hroot, haccesses⟩ := Cursor.Reads.append_iff.mp hread
  have hword := outcome_name root hroot (by
    rw [haccesses.rest]; exact stops_accesses accesses hends)
  have hmany := (outcome_many_iff access_progress).mpr (chain_accesses accesses haccesses hends)
  simp only [path_eq, outcome_named, outcome_bind, outcome_pure, hword, hmany, hroot.here,
    Option.bind_some]

/-! ## Layer C: literals -/

/-- A tree that is a single token. -/
def Tree.IsLiteral : Tree → Prop
  | .quoted _ | .number _ | .boolean _ | .null => True
  | _ => False

theorem outcome_number_eq_none (h : Stops startsNumber cursor.rest) :
    (token .number number).outcome cursor = none :=
  outcome_token_eq_none (number_eq_none h)

theorem outcome_numeral (n : Numeral) (hread : cursor.Reads n.written behind)
    (hends : Ends behind.rest) :
    (token .number number).outcome cursor = some (n.written, behind) := by
  rw [outcome_token_iff, hread.rest]
  exact ⟨number_written n (hends.stops (by decide)) (hends.stops (by decide)), hread⟩

theorem outcome_boolean (b : Bool) (hread : cursor.Reads (Tree.boolean b).written behind)
    (hends : Ends behind.rest) :
    (token .boolean boolean).outcome cursor = some ((Tree.boolean b).written, behind) := by
  rw [outcome_token_iff, hread.rest]
  exact ⟨boolean_written b (hends.stops (by decide)), hread⟩

theorem outcome_null (hread : cursor.Reads Tree.null.written behind) (hends : Ends behind.rest) :
    (token .null null).outcome cursor = some (Tree.null.written, behind) := by
  rw [outcome_token_iff, hread.rest]
  exact ⟨keyword_eq_some_iff.mpr ⟨rfl, rfl, hends.stops (by decide)⟩, hread⟩

/-- The word for no value is no truth value. -/
theorem outcome_boolean_of_null (hread : cursor.Reads Tree.null.written behind) :
    (token .boolean boolean).outcome cursor = none := by
  have hrest : cursor.rest = 'n' :: ("ull".toList ++ behind.rest) := hread.rest
  apply outcome_token_eq_none
  rw [boolean, hrest, keyword_cons_eq_none (by decide) (by decide),
    keyword_cons_eq_none (by decide) (by decide)]
  rfl

/-- A literal is read, whatever its kind. -/
theorem outcome_literal {t : Tree} (ht : t.IsLiteral) (hread : cursor.Reads t.written behind)
    (hends : Ends behind.rest) : literal.outcome cursor = some (t.phrase cursor.here, behind) := by
  simp only [literal, outcome_orElse, outcome_bind, outcome_pure]
  cases t with
  | quoted q =>
    rw [outcome_quotedText q hread (hends.stops (by decide))]
    rfl
  -- A literal that comes later in the choice needs the earlier ones to fail at its first character.
  | number n =>
    obtain ⟨c, cs, hcons, hc⟩ := n.exists_cons
    have hquoted : quotedText.outcome cursor = none := by
      apply outcome_quotedText_eq_none
      rw [hread.rest, Tree.written, hcons]
      exact stops_cons_iff.mpr (isQuote_eq_false hc (by decide) (by decide))
    rw [hquoted, outcome_numeral n hread hends]
    rfl
  | boolean b =>
    cases b with
    | true =>
      have hword : cursor.Reads ('t' :: "rue".toList) behind := hread
      rw [outcome_quotedText_eq_none (hword.stops (by decide)),
        outcome_number_eq_none (hword.stops (by decide)), outcome_boolean true hread hends]
      rfl
    | false =>
      have hword : cursor.Reads ('f' :: "alse".toList) behind := hread
      rw [outcome_quotedText_eq_none (hword.stops (by decide)),
        outcome_number_eq_none (hword.stops (by decide)), outcome_boolean false hread hends]
      rfl
  | null =>
    have hword : cursor.Reads ('n' :: "ull".toList) behind := hread
    rw [outcome_quotedText_eq_none (hword.stops (by decide)),
      outcome_number_eq_none (hword.stops (by decide)), outcome_boolean_of_null hread,
      outcome_null hread hends]
    rfl
  | path => exact ht.elim
  | group => exact ht.elim
  | list => exact ht.elim

/-! ## Layer D: first characters -/

/-- The characters that literals and paths start with. -/
def startsAtom (c : Char) : Bool := isQuote c || startsNumber c || isNameStart c

/-- A letter is no digit. -/
theorem isDigit_eq_false (h : c.isAlpha = true) : c.isDigit = false := by
  unfold Char.isAlpha Char.isUpper Char.isLower at h
  unfold Char.isDigit
  simp only [Bool.or_eq_true, Bool.and_eq_true, decide_eq_true_eq, ge_iff_le,
    UInt32.le_iff_toNat_le] at h
  simp only [Bool.and_eq_false_iff, decide_eq_false_iff_not, ge_iff_le, UInt32.le_iff_toNat_le]
  -- The digits lie below both cases of letters.
  have hlast : '9'.val.toNat = 57 := rfl
  have hupper : 'A'.val.toNat = 65 := rfl
  have hlower : 'a'.val.toNat = 97 := rfl
  omega

/-- No number starts with a letter. -/
theorem startsNumber_eq_false (h : isNameStart c = true) : startsNumber c = false := by
  have hsign : c ≠ '-' := ne_of_test h (by decide)
  simp only [isNameStart, Bool.or_eq_true, decide_eq_true_eq] at h
  rcases h with h | rfl
  · simp [startsNumber, hsign, isDigit_eq_false h]
  · decide

theorem startsAtom_of_startsNumber (h : startsNumber c = true) : startsAtom c = true := by
  simp [startsAtom, h]

theorem startsAtom_of_isNameStart (h : isNameStart c = true) : startsAtom c = true := by
  simp [startsAtom, h]

/-- A tree without parentheses around it. -/
def Tree.IsAtom : Tree → Prop
  | .group .. | .list .. => False
  | _ => True

/-- A tree without parentheses around it starts as a literal or a path does. -/
theorem Tree.exists_cons_of_isAtom {t : Tree} (h : t.IsAtom) :
    ∃ c cs, t.written = c :: cs ∧ startsAtom c = true := by
  cases t with
  | quoted q => cases q <;> exact ⟨_, _, rfl, by decide⟩
  | number n =>
    obtain ⟨c, cs, hcons, hc⟩ := n.exists_cons
    exact ⟨c, cs, hcons, startsAtom_of_startsNumber hc⟩
  | boolean b =>
    cases b with
    | true => exact ⟨'t', "rue".toList, rfl, by decide⟩
    | false => exact ⟨'f', "alse".toList, rfl, by decide⟩
  | null => exact ⟨'n', "ull".toList, rfl, by decide⟩
  | path root => exact ⟨_, _, rfl, startsAtom_of_isNameStart root.starts⟩
  | group => exact h.elim
  | list => exact h.elim

/-- A tree starts as an atom does, or with a parenthesis. -/
theorem Tree.exists_cons (t : Tree) :
    ∃ c cs, t.written = c :: cs ∧ (startsAtom c = true ∨ c = '(') := by
  by_cases h : t.IsAtom
  · obtain ⟨c, cs, hcons, hc⟩ := Tree.exists_cons_of_isAtom h
    exact ⟨c, cs, hcons, .inl hc⟩
  · -- What is no atom stands in parentheses.
    cases t with
    | group => exact ⟨_, _, rfl, .inr rfl⟩
    | list => exact ⟨_, _, rfl, .inr rfl⟩
    | _ => exact (h True.intro).elim

/-- No space stands in front of a tree. -/
theorem Tree.stops_space {t : Tree} (h : cursor.Reads t.written behind) :
    Stops isSpace cursor.rest := by
  obtain ⟨c, cs, hcons, hc⟩ := t.exists_cons
  rw [hcons] at h
  rcases hc with hc | rfl
  · exact h.stops (isSpace_eq_false (by decide) hc)
  · exact h.stops (by decide)

/-- A tree without parentheses around it does not start with one. -/
theorem Tree.stops_paren {t : Tree} (ht : t.IsAtom) (h : cursor.Reads t.written behind) :
    Stops (· = '(') cursor.rest := by
  obtain ⟨c, cs, hcons, hc⟩ := Tree.exists_cons_of_isAtom ht
  have hne : c ≠ '(' := ne_of_test hc (by decide)
  rw [hcons] at h
  exact h.stops (decide_eq_false hne)

/-! ## Layer E: choices -/

/-- A name that is none of the words is no literal. -/
theorem outcome_literal_eq_none {n : Name} (hfree : n.written ∉ keywords)
    (hread : cursor.Reads n.written behind) (hrest : Stops isNameChar behind.rest) :
    literal.outcome cursor = none := by
  simp only [keywords, List.mem_cons, List.not_mem_nil, or_false, not_or] at hfree
  obtain ⟨htrue, hfalse, hnull⟩ := hfree
  have hquoted : quotedText.outcome cursor = none :=
    outcome_quotedText_eq_none (hread.stops (isQuote_eq_false n.starts (by decide) (by decide)))
  have hnumber : (token .number number).outcome cursor = none :=
    outcome_number_eq_none (hread.stops (startsNumber_eq_false n.starts))
  -- A name may start like one of the words; it is refused because it goes on.
  have hboolean : (token .boolean boolean).outcome cursor = none := by
    apply outcome_token_eq_none
    rw [boolean, hread.rest, keyword_written_eq_none n htrue (by decide) hrest,
      keyword_written_eq_none n hfalse (by decide) hrest]
    rfl
  have hnone : (token .null null).outcome cursor = none := by
    apply outcome_token_eq_none
    rw [null, hread.rest, keyword_written_eq_none n hnull (by decide) hrest]
  simp only [literal, outcome_orElse, outcome_bind, hquoted, hnumber, hboolean, hnone,
    Option.bind_none, Option.none_or]

/-- A tree without parentheses around it is read as a literal or as a path. -/
theorem outcome_atom {t : Tree} (ht : t.IsAtom) (hread : cursor.Reads t.written behind)
    (hends : Ends behind.rest) :
    (orElse literal path).outcome cursor = some (t.phrase cursor.here, behind) := by
  rw [outcome_orElse]
  by_cases hliteral : t.IsLiteral
  · rw [outcome_literal hliteral hread hends]
    rfl
  · cases t with
    -- A path is read only because its root is none of the words.
    | path root free accesses =>
      obtain ⟨middle, hroot, haccesses⟩ := Cursor.Reads.append_iff.mp hread
      have hstops : Stops isNameChar middle.rest := by
        rw [haccesses.rest]
        exact stops_accesses accesses hends
      rw [outcome_literal_eq_none free hroot hstops, Option.none_or]
      exact outcome_path hread hends
    | group => exact ht.elim
    | list => exact ht.elim
    | _ => exact (hliteral True.intro).elim

variable {e : Recogniser Phrase} [Lawful e]

theorem outcome_list_eq_none (h : Stops (· = '(') cursor.rest) :
    (list e).outcome cursor = none := by
  simp only [list_eq, outcome_named, outcome_bind, outcome_symbol_eq_none h, Option.bind_none]

theorem outcome_group_eq_none (h : Stops (· = '(') cursor.rest) :
    (group e).outcome cursor = none := by
  simp only [group, outcome_named, outcome_bind, outcome_symbol_eq_none h, Option.bind_none]

variable {before lead trail : Gap} {inside middle : Cursor} {phrase : Phrase}

/-- Where the parentheses are closed no further item follows. -/
theorem outcome_item_of_close (hclose : cursor.Reads (trail.chars ++ [')']) behind) :
    (item e).outcome cursor = none := by
  obtain ⟨middle, htrail, hlast⟩ := Cursor.Reads.append_iff.mp hclose
  -- The closing parenthesis stands where a comma would have to.
  have hcomma : (symbol ',').outcome middle = none :=
    outcome_symbol_eq_none (hlast.stops (by decide))
  simp only [item, outcome_bind, outcome_space_of_cons htrail hlast (by decide), hcomma,
    Option.bind_some, Option.bind_none]

/-- An item is the tree that stands behind the comma. -/
theorem outcome_item {t : Tree}
    (hread : cursor.Reads (before.chars ++ ',' :: (lead.chars ++ t.written)) behind)
    (he : ∀ inside : Cursor, inside.Reads t.written behind →
      e.outcome inside = some (t.phrase inside.here, behind)) :
    (item e).outcome cursor =
      some (t.phrase (cursor.here + extent (before.chars ++ ',' :: lead.chars)), behind) := by
  obtain ⟨c₁, hbefore, h⟩ := Cursor.Reads.append_iff.mp hread
  obtain ⟨c₂, hcomma, h⟩ := Cursor.Reads.cons_iff.mp h
  obtain ⟨inside, hlead, ht⟩ := Cursor.Reads.append_iff.mp h
  have hspace := outcome_space_of_cons hbefore hcomma (by decide)
  have hhere := (hbefore.trans (hcomma.trans hlead)).here
  simp only [item, outcome_bind, hspace, outcome_symbol_iff.mpr hcomma,
    outcome_space hlead (Tree.stops_space ht), he inside ht, Option.bind_some]
  rw [hhere]
  rfl

/-- A group is what stands between its parentheses. -/
theorem outcome_group (hopen : cursor.Reads ('(' :: lead.chars) inside)
    (hinside : Stops isSpace inside.rest) (hinner : e.outcome inside = some (phrase, middle))
    (hclose : middle.Reads (trail.chars ++ [')']) behind) :
    (group e).outcome cursor = some (phrase, behind) := by
  obtain ⟨c₁, hsymbol, hlead⟩ := Cursor.Reads.cons_iff.mp hopen
  obtain ⟨c₂, htrail, hlast⟩ := Cursor.Reads.append_iff.mp hclose
  have hspace := outcome_space_of_cons htrail hlast (by decide)
  simp only [group, outcome_named, outcome_bind, outcome_pure, outcome_symbol_iff.mpr hsymbol,
    outcome_space hlead hinside, hinner, hspace, outcome_symbol_iff.mpr hlast, Option.bind_some]

/-- A single expression in parentheses is no list. -/
theorem outcome_list_of_single (hopen : cursor.Reads ('(' :: lead.chars) inside)
    (hinside : Stops isSpace inside.rest) (hinner : e.outcome inside = some (phrase, middle))
    (hclose : middle.Reads (trail.chars ++ [')']) behind) :
    (list e).outcome cursor = none := by
  obtain ⟨c₁, hsymbol, hlead⟩ := Cursor.Reads.cons_iff.mp hopen
  have hitem : (item e).outcome middle = none := outcome_item_of_close hclose
  simp only [list_eq, outcome_named, outcome_bind, outcome_symbol_iff.mpr hsymbol,
    outcome_space hlead hinside, hinner, hitem, Option.bind_some, Option.bind_none]

/-- A list is its first two items and a chain of further ones. -/
theorem outcome_list {first second : Phrase} {others : List Phrase} {c₁ c₂ c₃ : Cursor}
    (hprogress : ∀ {cursor phrase behind}, (item e).outcome cursor = some (phrase, behind) →
      behind.rest.length < cursor.rest.length)
    (hopen : cursor.Reads ('(' :: lead.chars) inside) (hinside : Stops isSpace inside.rest)
    (hfirst : e.outcome inside = some (first, c₁))
    (hsecond : (item e).outcome c₁ = some (second, c₂)) (hothers : Chain (item e) c₂ others c₃)
    (hclose : c₃.Reads (trail.chars ++ [')']) behind) :
    (list e).outcome cursor = some (.list (first :: second :: others), behind) := by
  obtain ⟨start, hsymbol, hlead⟩ := Cursor.Reads.cons_iff.mp hopen
  obtain ⟨last, htrail, hlast⟩ := Cursor.Reads.append_iff.mp hclose
  have hspace := outcome_space_of_cons htrail hlast (by decide)
  have hmany := (outcome_many_iff hprogress).mpr hothers
  simp only [list_eq, outcome_named, outcome_bind, outcome_pure, outcome_symbol_iff.mpr hsymbol,
    outcome_space hlead hinside, hfirst, hsecond, hmany, hspace, outcome_symbol_iff.mpr hlast,
    Option.bind_some]

/-! ## Layer F: trees -/

theorem Items.ends {items : Items} (h : cursor.Reads items.written behind) : Ends cursor.rest := by
  rw [h.rest]
  cases items <;>
    rw [Items.written, List.append_assoc, ends_gap_iff] <;>
    exact ends_cons (by decide)

mutual

/-- The text of a tree is read as that tree, where an expression may end. -/
theorem Tree.outcome_expr (t : Tree) {depth : Nat} {cursor behind : Cursor}
    (hread : cursor.Reads t.written behind) (hends : Ends behind.rest) (hdepth : t.depth < depth) :
    (expr depth).outcome cursor = some (t.phrase cursor.here, behind) := by
  obtain ⟨depth, rfl⟩ := Nat.exists_eq_succ_of_ne_zero (Nat.ne_zero_of_lt hdepth)
  -- Without a parenthesis in front, lists and groups fail and the atoms are left.
  have hatom (h : t.IsAtom) :
      (expr (depth + 1)).outcome cursor = some (t.phrase cursor.here, behind) := by
    have hparen := Tree.stops_paren h hread
    rw [expr, outcome_orElse, outcome_orElse, outcome_list_eq_none hparen,
      outcome_group_eq_none hparen, outcome_atom h hread hends]
    rfl
  match t with
  | .quoted _ | .number _ | .boolean _ | .null | .path .. => exact hatom True.intro
  -- A list is tried first and fails behind the first item.
  | .group lead inner trail =>
    obtain ⟨inside, hopen, h⟩ : ∃ inside, cursor.Reads ('(' :: lead.chars) inside ∧
        inside.Reads (inner.written ++ (trail.chars ++ [')'])) behind :=
      Cursor.Reads.append_iff.mp hread
    obtain ⟨middle, hinner, hclose⟩ := Cursor.Reads.append_iff.mp h
    have hinside := Tree.stops_space hinner
    have hphrase := inner.outcome_expr hinner (ends_of_close (by decide) hclose)
      (Nat.lt_of_succ_lt_succ hdepth)
    rw [expr, outcome_orElse, outcome_orElse, outcome_list_of_single hopen hinside hphrase hclose,
      outcome_group hopen hinside hphrase hclose, hopen.here]
    rfl
  -- The first item is followed by a comma, so the list succeeds and the group is not tried.
  | .list lead first others trail =>
    obtain ⟨inside, hopen, h⟩ : ∃ inside, cursor.Reads ('(' :: lead.chars) inside ∧
        inside.Reads (first.written ++ (others.written ++ (trail.chars ++ [')']))) behind :=
      Cursor.Reads.append_iff.mp hread
    obtain ⟨c₁, hfirst, h⟩ := Cursor.Reads.append_iff.mp h
    obtain ⟨c₂, hothers, hclose⟩ := Cursor.Reads.append_iff.mp h
    have hstop : (item (expr depth)).outcome c₂ = none := outcome_item_of_close hclose
    rw [Tree.depth, Nat.succ_lt_succ_iff, Nat.max_lt] at hdepth
    have hphrase := first.outcome_expr hfirst (Items.ends hothers) hdepth.1
    obtain ⟨second, more, middle, hphrases, hsecond, hchain⟩ :=
      others.exists_chain hothers (ends_of_close (by decide) hclose) hstop hdepth.2
    have hlist := outcome_list (item_progress (exists_tree depth)) hopen (Tree.stops_space hfirst)
      hphrase hsecond hchain hclose
    rw [expr, outcome_orElse, hlist, Option.some_or, ← hphrases, hfirst.here, hopen.here,
      Offset.add_assoc, ← extent_append]
    rfl

/-- The items of a list are read one after another, where no further item follows. -/
theorem Items.exists_chain (items : Items) {depth : Nat} {cursor behind : Cursor}
    (hread : cursor.Reads items.written behind) (hends : Ends behind.rest)
    (hstop : (item (expr depth)).outcome behind = none) (hdepth : items.depth < depth) :
    ∃ second others middle, items.phrases cursor.here = second :: others ∧
      (item (expr depth)).outcome cursor = some (second, middle) ∧
      Chain (item (expr depth)) middle others behind := by
  -- Along the items; each is followed by a comma, where an expression may end.
  match items with
  | .last before lead t =>
    have hitem : (item (expr depth)).outcome cursor = _ :=
      outcome_item hread fun _ ht => t.outcome_expr ht hends hdepth
    exact ⟨_, [], behind, rfl, hitem, .stop hstop⟩
  | .more before lead t others =>
    obtain ⟨middle, hitem, hothers⟩ : ∃ middle,
        cursor.Reads (before.chars ++ ',' :: (lead.chars ++ t.written)) middle ∧
        middle.Reads others.written behind := by
      rw [← Cursor.Reads.append_iff]
      simpa [Items.written] using hread
    rw [Items.depth, Nat.max_lt] at hdepth
    have hfirst : (item (expr depth)).outcome cursor = _ :=
      outcome_item hitem fun _ ht => t.outcome_expr ht (Items.ends hothers) hdepth.1
    obtain ⟨second, more, last, hphrases, hsecond, hchain⟩ :=
      others.exists_chain hothers hends hstop hdepth.2
    -- An item takes up its comma at least, which the chain asks for.
    have hlt : last.rest.length < middle.rest.length := item_progress (exists_tree depth) hsecond
    refine ⟨_, second :: more, middle, ?_, hfirst, .step hsecond hlt hchain⟩
    rw [Items.phrases, ← hphrases, hitem.here]

end

end Interpolation.Grammar
