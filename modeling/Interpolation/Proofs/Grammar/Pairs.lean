import Interpolation.Grammar.Basic
import Interpolation.Proofs.Grammar.Recogniser

/-!
# The grammar as data, and its parse trees

The grammar of expressions can be written down as patterns, one for each rule, and read by one
interpreter for all patterns.  The interpreter leaves a pair for each rule that it has read: the
rule, the place and the text of what was read, and the pairs of the rules in it.  What becomes of
the rules in a rule depends on the kind of the rule: between the parts of a normal rule there may be
spaces, an atomic rule is a token without spaces and without pairs in it, and a compound rule has
pairs but no spaces.  A pattern that is no rule of its own leaves no pair.

Whatever the patterns are, the pairs are true to the text: each stands where it says it does, and
they come in the order of the text.

## Main definitions

- `Pattern`, `Production`: patterns, and rules.
- `production`: the rules of the grammar.
- `Pair`: what is left of a rule that was read.
- `Pattern.read`, `readRule`: the interpreter.
- `parsePairs`: the pairs of a text.

## Main results

- `lays_read`: whatever the pattern is, its pairs are true to the text.
- `laid_of_parsePairs`: so are the pairs of a text.
-/

namespace Interpolation.Grammar

open Recogniser

/-! ## Layer A: patterns -/

/-- What a text has to be like, as an expression over characters and rules. -/
inductive Pattern where
  /-- These characters. -/
  | word (chars : List Char)
  /-- One character of a kind. -/
  | one (test : Char → Bool)
  /-- Nothing, at the start of the text. -/
  | startOfText
  /-- Nothing, at the end of the text. -/
  | endOfText
  /-- What a rule reads. -/
  | rule (rule : Rule)
  /-- Two patterns in a row. -/
  | seq (first second : Pattern)
  /-- The second alternative counts where the first one fails. -/
  | choice (first second : Pattern)
  /-- The pattern, or nothing. -/
  | optional (part : Pattern)
  /-- As many times as possible. -/
  | star (part : Pattern)
  /-- Nothing, where the part fails. -/
  | absent (part : Pattern)

namespace Pattern

instance : AndThen Pattern := ⟨fun p q => seq p (q ())⟩

instance : OrElse Pattern := ⟨fun p q => choice p (q ())⟩

/-- A pattern once and as many times more as possible. -/
def plus (part : Pattern) : Pattern := part >> star part

/-- A decimal digit. -/
def digit : Pattern := one Char.isDigit

/-- Any character. -/
def anything : Pattern := one fun _ => true

/-- A character that a name may go on with. -/
def nameChar : Pattern := one Char.isAlphanum <|> word ['_']

/-- What stands for itself. -/
def literal : Pattern := rule .string <|> rule .number <|> rule .boolean <|> rule .null

/-- An expression, by the rules in the order in which they are tried. -/
def expr : Pattern := rule .list <|> rule .group <|> literal <|> rule .path

end Pattern

/-- What a rule does with the spaces between its parts and with the rules in it. -/
inductive Kind where
  /-- As the rule around it does. -/
  | normal
  /-- No spaces, and no pairs. -/
  | atomic
  /-- No spaces, but pairs. -/
  | compound

/-- A rule of the grammar. -/
structure Production where
  /-- What the rule does with spaces and with the rules in it. -/
  kind : Kind
  /-- What the rule reads. -/
  pattern : Pattern

open Pattern in
/-- The rules of the grammar. -/
def production : Rule → Production
  | .endOfInput => ⟨.normal, endOfText⟩
  | .expression => ⟨.normal, startOfText >> Pattern.expr >> rule .endOfInput⟩
  | .list =>
    ⟨.normal, word ['('] >> Pattern.expr >> plus (word [','] >> Pattern.expr) >> word [')']⟩
  | .group => ⟨.normal, word ['('] >> Pattern.expr >> word [')']⟩
  | .string => ⟨.compound, rule .singleQuoted <|> rule .doubleQuoted⟩
  | .singleQuoted =>
    ⟨.atomic, word ['\''] >> star (word ['\'', '\''] <|> (absent (word ['\'']) >> anything)) >>
      word ['\'']⟩
  | .doubleQuoted => ⟨.atomic, word ['"'] >> star (absent (word ['"']) >> anything) >> word ['"']⟩
  | .number => ⟨.atomic, optional (word ['-']) >> plus digit >> optional (word ['.'] >> plus digit)⟩
  | .boolean => ⟨.atomic, (word "true".toList <|> word "false".toList) >> absent nameChar⟩
  | .null => ⟨.atomic, word "null".toList >> absent nameChar⟩
  | .path => ⟨.normal, rule .identifier >> star (rule .property <|> rule .index)⟩
  | .property => ⟨.normal, word ['.'] >> rule .identifier⟩
  | .index => ⟨.normal, word ['['] >> (rule .string <|> rule .integer) >> word [']']⟩
  | .integer => ⟨.atomic, plus digit⟩
  | .identifier => ⟨.atomic, (one Char.isAlpha <|> word ['_']) >> star nameChar⟩

/-! ## Layer B: the interpreter -/

/-- What is left of a rule that was read. -/
structure Pair where
  /-- The rule. -/
  rule : Rule
  /-- The byte offset at which the rule starts. -/
  start : Nat
  /-- What the rule has read. -/
  text : List Char
  /-- The pairs of the rules in it, in the order in which they were read. -/
  inner : List Pair

mutual

/-- A pair and the pairs in it, each in front of those in it. -/
def Pair.all : Pair → List Pair
  | ⟨rule, start, text, inner⟩ => ⟨rule, start, text, inner⟩ :: Pair.allOf inner

/-- Some pairs and the pairs in them. -/
def Pair.allOf : List Pair → List Pair
  | [] => []
  | pair :: pairs => pair.all ++ Pair.allOf pairs

end

/-- How the parts of a rule are read. -/
inductive Mode where
  /-- With spaces between them. -/
  | free
  /-- Without spaces. -/
  | compound
  /-- Without spaces and without pairs. -/
  | atomic
deriving DecidableEq

/-- The text between two cursors. -/
def Cursor.textTo (cursor behind : Cursor) : List Char :=
  cursor.rest.take (cursor.rest.length - behind.rest.length)

namespace Recogniser

/-- The cursor itself, without reading. -/
def current : Recogniser Cursor := fun cursor state => (some (cursor, cursor), state)

/-- Reads nothing, where something else cannot be read. -/
def absent {α : Type} (p : Recogniser α) : Recogniser Unit := fun cursor state =>
  match p cursor state with
  | (none, state) => (some ((), cursor), state)
  | (some _, state) => (none, state)

/-- Reads a rule, and leaves a pair for it. -/
def pairOf (mode : Mode) (rule : Rule) (p : Recogniser (List Pair)) : Recogniser (List Pair) :=
  named rule do
    let start ← current
    let inner ← p
    let stop ← current
    return if mode = .atomic then inner
      else [⟨rule, start.here.bytes, start.textTo stop, inner⟩]

/-- What may stand between two parts of a rule. -/
def separator : Mode → Recogniser Unit
  -- Only here may there be spaces, which leave no pairs.
  | .free => space
  | .compound | .atomic => return ()

end Recogniser

/-- The lexer of a word. -/
def exactly (chars : List Char) : Lexer := fun text =>
  if chars.isPrefixOf text then some (chars, text.drop chars.length) else none

/-- The lexer of one character of a kind. -/
def satisfying (test : Char → Bool) : Lexer
  | [] => none
  | c :: cs => if test c then some ([c], cs) else none

/-- Reads a pattern.  The pairs are those of the rules in it. -/
def Pattern.read (call : Mode → Rule → Recogniser (List Pair)) (mode : Mode) :
    Pattern → Recogniser (List Pair)
  | word chars => do
    let _ ← lexeme (exactly chars)
    return []
  | one test => do
    let _ ← lexeme (satisfying test)
    return []
  | startOfText => do
    if (← place) = .zero then return [] else fail
  | endOfText => do
    atEnd
    return []
  | rule r => call mode r
  | seq p q => do
    let first ← p.read call mode
    separator mode
    let second ← q.read call mode
    return first ++ second
  | choice p q => Recogniser.orElse (p.read call mode) (q.read call mode)
  | optional p => Recogniser.orElse (p.read call mode) (return [])
  | star p =>
    Recogniser.orElse
      (do
        let first ← p.read call mode
        let others ← many do
          separator mode
          p.read call mode
        return first ++ others.flatten)
      (return [])
  | .absent p => do
    Recogniser.absent (p.read call mode)
    return []

/-- Reads a rule in which there are fewer than `depth` rules within each other.  A compound rule has
its pair whatever is around it. -/
def readRule : Nat → Mode → Rule → Recogniser (List Pair)
  | 0, _, _ => fail
  | depth + 1, mode, rule =>
    let pattern := (production rule).pattern
    match (production rule).kind with
    | .normal => pairOf mode rule (pattern.read (readRule depth) mode)
    | .atomic => pairOf mode rule (pattern.read (readRule depth) .atomic)
    | .compound => pairOf .compound rule (pattern.read (readRule depth) .compound)

/-- The pairs of a whole text.  Each parenthesis within another takes one rule more, and the rules
without parentheses take five, so the depth never decides. -/
def parsePairs (text : List Char) : Except Furthest (List Pair) :=
  -- Five rules are around a token: expression, path, index, string and the literal itself.
  match readRule (text.length + 5) .free .expression ⟨.zero, text⟩ .initial with
  | (some (pairs, _), _) => .ok pairs
  | (none, furthest) => .error furthest

/-! ## Layer C: pairs are true to the text -/

variable {α β : Type} {text u : List Char} {cursor middle behind : Cursor}
  {pairs others : List Pair}

namespace Pair

/-- The text of a pair stands in a text where the pair says it does. -/
def StandsIn (text : List Char) (pair : Pair) : Prop :=
  ∃ before behind, text = before ++ (pair.text ++ behind) ∧ pair.start = (extent before).bytes

theorem allOf_append (pairs others : List Pair) :
    allOf (pairs ++ others) = allOf pairs ++ allOf others := by
  induction pairs with
  | nil => rfl
  | cons pair pairs ih => rw [List.cons_append, allOf, allOf, ih, List.append_assoc]

@[simp] theorem allOf_singleton (pair : Pair) : allOf [pair] = pair :: allOf pair.inner := by
  obtain ⟨rule, start, text, inner⟩ := pair
  rw [allOf, allOf, List.append_nil, all]

end Pair

theorem Cursor.Reads.textTo_eq (h : cursor.Reads u behind) : cursor.textTo behind = u := by
  rw [Cursor.textTo, h.rest, List.length_append, Nat.add_sub_cancel_right, List.take_left]

theorem Cursor.Reads.bytes_le (h : cursor.Reads u behind) :
    cursor.here.bytes ≤ behind.here.bytes := by
  rw [h.here, Offset.bytes_add]
  exact Nat.le_add_right _ _

/-- Between two cursors there are pairs that stand there, in the order of the text. -/
structure Laid (text : List Char) (cursor : Cursor) (pairs : List Pair) (behind : Cursor) :
    Prop where
  /-- The second cursor is ahead of the first one. -/
  reads : ∃ lexeme, cursor.Reads lexeme behind
  /-- Each pair stands where it says it does. -/
  stands : ∀ pair ∈ Pair.allOf pairs, pair.StandsIn text
  /-- Each pair starts between the two cursors. -/
  within : ∀ pair ∈ Pair.allOf pairs,
    cursor.here.bytes ≤ pair.start ∧ pair.start ≤ behind.here.bytes
  /-- The pairs come in the order of their starts. -/
  ordered : (Pair.allOf pairs).Pairwise (·.start ≤ ·.start)

namespace Laid

theorem nil (h : cursor.Reads u behind) : Laid text cursor [] behind where
  reads := ⟨u, h⟩
  stands := nofun
  within := nofun
  ordered := .nil

/-- Pairs up to a cursor and pairs from there on are pairs of the whole stretch. -/
theorem append (h : Laid text cursor pairs middle) (h' : Laid text middle others behind) :
    Laid text cursor (pairs ++ others) behind := by
  obtain ⟨u, hu⟩ := h.reads
  obtain ⟨v, hv⟩ := h'.reads
  refine ⟨⟨u ++ v, hu.trans hv⟩, ?_, ?_, ?_⟩
  · rw [Pair.allOf_append]
    exact List.forall_mem_append.mpr ⟨h.stands, h'.stands⟩
  · rw [Pair.allOf_append]
    refine List.forall_mem_append.mpr ⟨fun pair hpair => ?_, fun pair hpair => ?_⟩
    · -- A pair of the first stretch ends in front of the second one.
      exact ⟨(h.within pair hpair).1, Nat.le_trans (h.within pair hpair).2 hv.bytes_le⟩
    · -- A pair of the second stretch starts behind the first one.
      exact ⟨Nat.le_trans hu.bytes_le (h'.within pair hpair).1, (h'.within pair hpair).2⟩
  · rw [Pair.allOf_append]
    -- Across the two stretches, the cursor between them separates the starts.
    refine List.pairwise_append.mpr ⟨h.ordered, h'.ordered, fun pair hpair other hother => ?_⟩
    exact Nat.le_trans (h.within pair hpair).2 (h'.within other hother).1

/-- A rule around pairs starts in front of them. -/
theorem pair (hcursor : Cursor.Reads ⟨.zero, text⟩ u cursor) (h : Laid text cursor pairs behind)
    (rule : Rule) :
    Laid text cursor [⟨rule, cursor.here.bytes, cursor.textTo behind, pairs⟩] behind := by
  obtain ⟨v, hv⟩ := h.reads
  -- The new pair stands where the cursor is, and its text is all that was read since.
  have hstart : (⟨rule, cursor.here.bytes, cursor.textTo behind, pairs⟩ : Pair).StandsIn text := by
    refine ⟨u, behind.rest, ?_, ?_⟩
    · rw [hv.textTo_eq, ← hv.rest]
      exact hcursor.rest
    · rw [hcursor.here, Offset.zero_add]
  refine ⟨⟨v, hv⟩, ?_, ?_, ?_⟩
  · rw [Pair.allOf_singleton]
    exact List.forall_mem_cons.mpr ⟨hstart, h.stands⟩
  · rw [Pair.allOf_singleton]
    exact List.forall_mem_cons.mpr ⟨⟨Nat.le_refl _, hv.bytes_le⟩, h.within⟩
  · rw [Pair.allOf_singleton]
    exact List.pairwise_cons.mpr ⟨fun other hother => (h.within other hother).1, h.ordered⟩

end Laid

namespace Recogniser

/-- A recogniser may read `a` from the cursor, whatever has failed before. -/
def Gives (p : Recogniser α) (cursor : Cursor) (a : α) (behind : Cursor) : Prop :=
  ∃ state after, p cursor state = (some (a, behind), after)

theorem gives_pure {a b : α} (h : (pure a : Recogniser α).Gives cursor b behind) :
    b = a ∧ behind = cursor := by
  obtain ⟨state, after, h⟩ := h
  cases h
  exact ⟨rfl, rfl⟩

/-- What a sequence gives comes from both parts. -/
theorem gives_bind {p : Recogniser α} {f : α → Recogniser β} {b : β}
    (h : (p >>= f).Gives cursor b behind) :
    ∃ a middle, p.Gives cursor a middle ∧ (f a).Gives middle b behind := by
  obtain ⟨state, after, h⟩ := h
  rw [bind_run] at h
  rcases hp : p cursor state with ⟨_ | ⟨a, middle⟩, between⟩
  · rw [hp] at h
    cases h
  · rw [hp] at h
    exact ⟨a, middle, ⟨state, between, hp⟩, ⟨between, after, h⟩⟩

/-- What a choice gives comes from one of its parts. -/
theorem gives_orElse {p q : Recogniser α} {a : α}
    (h : (Recogniser.orElse p q).Gives cursor a behind) :
    p.Gives cursor a behind ∨ q.Gives cursor a behind := by
  obtain ⟨state, after, h⟩ := h
  unfold Recogniser.orElse at h
  rcases hp : p cursor state with ⟨_ | found, between⟩
  · -- The first part has failed, so the second one has run, with its account.
    rw [hp] at h
    exact .inr ⟨between, after, h⟩
  · rw [hp] at h
    exact .inl ⟨state, after, hp.trans h⟩

/-- What a rule gives comes from its body. -/
theorem gives_named {rule : Rule} {p : Recogniser α} {a : α}
    (h : (named rule p).Gives cursor a behind) : p.Gives cursor a behind := by
  obtain ⟨state, after, h⟩ := h
  unfold named at h
  rcases hp : p cursor state with ⟨_ | found, between⟩
  · rw [hp] at h
    cases h
  · rw [hp] at h
    exact ⟨state, after, hp.trans h⟩

theorem reads_of_gives {p : Recogniser α} [Lawful p] {a : α} (h : p.Gives cursor a behind) :
    ∃ lexeme, cursor.Reads lexeme behind := by
  obtain ⟨state, after, h⟩ := h
  apply Lawful.reads (p := p) (a := a)
  rw [← fst_run p cursor state, h]

end Recogniser

/-- A word is split off the text in front of which it stands. -/
instance (chars : List Char) : LawfulLexer (exactly chars) where
  split {text lexeme rest} h := by
    rw [exactly, Option.ite_none_right_eq_some, Option.some.injEq, Prod.mk.injEq] at h
    obtain ⟨hstarts, rfl, rfl⟩ := h
    obtain ⟨behind, rfl⟩ := List.isPrefixOf_iff_prefix.mp hstarts
    rw [List.drop_left]

/-- One character is split off. -/
instance (test : Char → Bool) : LawfulLexer (satisfying test) where
  split {text lexeme rest} h := by
    cases text with
    | nil => cases h
    | cons c cs =>
      rw [satisfying, Option.ite_none_right_eq_some, Option.some.injEq, Prod.mk.injEq] at h
      obtain ⟨-, rfl, rfl⟩ := h
      rfl

/-- From a place in a text, a recogniser leaves pairs that are true to the text. -/
structure Lays (text : List Char) (p : Recogniser (List Pair)) : Prop where
  /-- The text in front of the cursor is part of what places are counted in. -/
  laid {u : List Char} {cursor behind : Cursor} {pairs : List Pair} :
    Cursor.Reads ⟨.zero, text⟩ u cursor → p.Gives cursor pairs behind →
      Laid text cursor pairs behind

namespace Lays

variable {p q : Recogniser (List Pair)} {r : Recogniser α} {f : α → Recogniser (List Pair)}

theorem fail (text : List Char) : Lays text fail where
  laid _ h := by
    obtain ⟨state, after, h⟩ := h
    cases h

theorem nothing (text : List Char) : Lays text (return []) where
  laid _ h := by
    obtain ⟨rfl, rfl⟩ := gives_pure h
    exact .nil (.nil _)

theorem behind_lawful [Lawful r] (hf : ∀ a, Lays text (f a)) : Lays text (r >>= f) where
  laid hcursor h := by
    obtain ⟨a, middle, hr, hnext⟩ := gives_bind h
    obtain ⟨v, hv⟩ := reads_of_gives hr
    exact (Laid.nil hv).append ((hf a).laid (hcursor.trans hv) hnext)

/-- Two parts, with something between them that leaves no pairs. -/
theorem seq [Lawful r] (hp : Lays text p) (hq : Lays text q) :
    Lays text (do
      let first ← p
      let _ ← r
      let second ← q
      return first ++ second) where
  laid hcursor h := by
    obtain ⟨first, middle, hfirst, h⟩ := gives_bind h
    obtain ⟨a, inside, hr, h⟩ := gives_bind h
    obtain ⟨second, last, hsecond, h⟩ := gives_bind h
    obtain ⟨rfl, rfl⟩ := gives_pure h
    have hleft := hp.laid hcursor hfirst
    obtain ⟨v, hv⟩ := hleft.reads
    obtain ⟨w, hw⟩ := reads_of_gives hr
    have hright := hq.laid ((hcursor.trans hv).trans hw) hsecond
    exact hleft.append ((Laid.nil hw).append hright)

theorem orElse (hp : Lays text p) (hq : Lays text q) : Lays text (Recogniser.orElse p q) where
  laid hcursor h := by
    rcases gives_orElse h with h | h
    · exact hp.laid hcursor h
    · exact hq.laid hcursor h

/-- The pairs of a repetition follow each other. -/
theorem repeated (hp : Lays text p) {limit : Nat} {all : List (List Pair)}
    (hcursor : Cursor.Reads ⟨.zero, text⟩ u cursor)
    (h : (Recogniser.repeated p limit).Gives cursor all behind) :
    Laid text cursor all.flatten behind := by
  -- On the limit: one phrase stands in front of the pairs of the rest.
  induction limit generalizing u cursor all with
  | zero =>
    obtain ⟨rfl, rfl⟩ := gives_pure h
    exact .nil (.nil _)
  | succ limit ih =>
    obtain ⟨state, after, h⟩ := h
    rw [repeated_run] at h
    rcases hone : p cursor state with ⟨_ | ⟨first, middle⟩, between⟩
    · rw [hone] at h
      cases h
      exact .nil (.nil _)
    · rw [hone] at h
      obtain ⟨others, last, hothers, h⟩ := gives_bind ⟨between, after, h⟩
      obtain ⟨rfl, rfl⟩ := gives_pure h
      have hfirst := hp.laid hcursor ⟨state, between, hone⟩
      obtain ⟨v, hv⟩ := hfirst.reads
      rw [List.flatten_cons]
      exact hfirst.append (ih (hcursor.trans hv) hothers)

/-- A repetition behind its first phrase. -/
theorem star (hp : Lays text p) (hq : Lays text q) :
    Lays text (do
      let first ← p
      let others ← many q
      return first ++ others.flatten) where
  laid hcursor h := by
    obtain ⟨first, middle, hfirst, h⟩ := gives_bind h
    obtain ⟨others, last, hothers, h⟩ := gives_bind h
    obtain ⟨rfl, rfl⟩ := gives_pure h
    have hleft := hp.laid hcursor hfirst
    obtain ⟨v, hv⟩ := hleft.reads
    exact hleft.append (hq.repeated (hcursor.trans hv) hothers)

/-- A lookahead reads nothing and leaves no pairs. -/
theorem absent (p : Recogniser (List Pair)) (text : List Char) :
    Lays text (do Recogniser.absent p; return []) where
  laid {_ cursor _ _} _ h := by
    obtain ⟨_, middle, ⟨state, after, habsent⟩, h⟩ := gives_bind h
    obtain ⟨rfl, rfl⟩ := gives_pure h
    unfold Recogniser.absent at habsent
    rcases hp : p cursor state with ⟨_ | found, between⟩
    · -- Where the part fails, the lookahead succeeds without reading.
      rw [hp] at habsent
      cases habsent
      exact .nil (.nil _)
    · rw [hp] at habsent
      cases habsent

/-- A rule leaves its pair around those in it, if it leaves one. -/
theorem pairOf (hp : Lays text p) (mode : Mode) (rule : Rule) :
    Lays text (pairOf mode rule p) where
  laid hcursor h := by
    obtain ⟨start, _, ⟨_, _, hstart⟩, h⟩ := gives_bind (gives_named h)
    obtain ⟨inner, last, hinner, h⟩ := gives_bind h
    obtain ⟨stop, _, ⟨_, _, hstop⟩, h⟩ := gives_bind h
    obtain ⟨rfl, rfl⟩ := gives_pure h
    cases hstart
    cases hstop
    have hlaid := hp.laid hcursor hinner
    -- A rule in a token leaves the pairs as they are, which are none.
    split
    · exact hlaid
    · exact hlaid.pair hcursor rule

end Lays

/-- Spaces between parts leave the account of failures alone. -/
instance (mode : Mode) : Lawful (separator mode) := by
  cases mode with
  | free => exact inferInstanceAs (Lawful (skipWhile isSpace))
  | compound => exact inferInstanceAs (Lawful (pure ()))
  | atomic => exact inferInstanceAs (Lawful (pure ()))

/-- Whatever a pattern is, its pairs are true to the text if those of the rules in it are. -/
theorem lays_read {call : Mode → Rule → Recogniser (List Pair)}
    (hcall : ∀ mode rule, Lays text (call mode rule)) (mode : Mode) (pattern : Pattern) :
    Lays text (pattern.read call mode) := by
  induction pattern with
  | word chars => exact .behind_lawful fun _ => .nothing text
  | one test => exact .behind_lawful fun _ => .nothing text
  -- The start of the text leaves no pair, or it fails.
  | startOfText =>
    refine .behind_lawful fun here => ?_
    split
    · exact .nothing text
    · exact .fail text
  | endOfText => exact .behind_lawful fun _ => .nothing text
  | rule r => exact hcall mode r
  | seq p q hp hq => exact .seq hp hq
  | choice p q hp hq => exact .orElse hp hq
  | optional p hp => exact .orElse hp (.nothing text)
  | star p hp => exact .orElse (.star hp (.behind_lawful fun _ => hp)) (.nothing text)
  | absent p hp => exact .absent _ text

/-- Whatever the depth, the pairs of a rule are true to the text. -/
theorem lays_readRule (text : List Char) (depth : Nat) (mode : Mode) (rule : Rule) :
    Lays text (readRule depth mode rule) := by
  -- On the depth, since rules call each other.
  induction depth generalizing mode rule with
  | zero => exact .fail text
  | succ depth ih =>
    rw [readRule]
    cases (production rule).kind with
    | normal => exact .pairOf (lays_read ih mode _) mode rule
    | atomic => exact .pairOf (lays_read ih .atomic _) mode rule
    | compound => exact .pairOf (lays_read ih .compound _) .compound rule

/-- **The pairs of a text stand in it, and they come in its order.** -/
theorem laid_of_parsePairs (h : parsePairs text = .ok pairs) :
    (∀ pair ∈ Pair.allOf pairs, pair.StandsIn text) ∧
      (Pair.allOf pairs).Pairwise (·.start ≤ ·.start) := by
  unfold parsePairs at h
  rcases hrun : readRule (text.length + 5) .free .expression ⟨.zero, text⟩ .initial with
    ⟨_ | ⟨found, behind⟩, after⟩
  · rw [hrun] at h
    cases h
  · rw [hrun] at h
    cases h
    have hlaid := (lays_readRule text _ .free .expression).laid (.nil _) ⟨_, _, hrun⟩
    exact ⟨hlaid.stands, hlaid.ordered⟩

end Interpolation.Grammar
