import Interpolation.Grammar.Recogniser

/-!
# Recognisers without their bookkeeping

A recogniser keeps account of the furthest failure while it reads.  The account never decides what
is read, so a recogniser is a plain function from a cursor to what is read there, its outcome, and
the outcome of a compound recogniser follows from the outcomes of its parts.  What is read lies at
the cursor, and a failure that is new lies in the text ahead of the cursor.

## Main definitions

- `Cursor.Reads`: a cursor, the text read from it, and the cursor behind that text.
- `Recogniser.outcome`: what a recogniser reads.
- `Lawful`: the account does not decide, and nothing is read or fails outside the text ahead.
- `Chain`: phrases in a row, up to where no further one is read.

## Main results

- `outcome_bind`, `outcome_orElse`, `outcome_named`: outcomes of compound recognisers.
- `outcome_many_iff`: a repetition reads a chain, and its limit never decides.
-/

namespace Interpolation.Grammar

variable {α β : Type}

/-! ## Layer A: cursors -/

/-- `behind` is where `lexeme` ends, which starts at `cursor`. -/
structure Cursor.Reads (cursor : Cursor) (lexeme : List Char) (behind : Cursor) : Prop where
  /-- The text from the first cursor on starts with the lexeme. -/
  rest : cursor.rest = lexeme ++ behind.rest
  /-- The second cursor is as much further on as the lexeme reaches. -/
  here : behind.here = cursor.here + extent lexeme

namespace Cursor.Reads

variable {cursor middle behind : Cursor} {u v : List Char}

theorem nil (cursor : Cursor) : cursor.Reads [] cursor := ⟨rfl, rfl⟩

theorem trans (hu : cursor.Reads u middle) (hv : middle.Reads v behind) :
    cursor.Reads (u ++ v) behind where
  rest := by rw [hu.rest, hv.rest, List.append_assoc]
  here := by rw [hv.here, hu.here, extent_append, Offset.add_assoc]

theorem advance {rest : List Char} (h : cursor.rest = u ++ rest) :
    cursor.Reads u (cursor.advance u rest) := ⟨h, rfl⟩

/-- What is read as one can be read as two in a row. -/
theorem append_iff :
    cursor.Reads (u ++ v) behind ↔ ∃ middle, cursor.Reads u middle ∧ middle.Reads v behind := by
  constructor
  · -- The middle is found by advancing over the first text only.
    rintro ⟨hrest, hhere⟩
    rw [List.append_assoc] at hrest
    refine ⟨cursor.advance u (v ++ behind.rest), .advance hrest, rfl, ?_⟩
    rw [hhere, extent_append, ← Offset.add_assoc]
    rfl
  · rintro ⟨middle, hu, hv⟩
    exact hu.trans hv

theorem cons_iff {c : Char} :
    cursor.Reads (c :: v) behind ↔ ∃ middle, cursor.Reads [c] middle ∧ middle.Reads v behind := by
  rw [← List.singleton_append, append_iff]

/-- To read nothing is to stay. -/
theorem nil_iff : cursor.Reads [] behind ↔ behind = cursor := by
  constructor
  · rintro ⟨hrest, hhere⟩
    obtain ⟨here, rest⟩ := behind
    dsimp only at hrest hhere
    rw [hhere, extent_nil, Offset.add_zero, ← List.nil_append rest, ← hrest]
  · rintro rfl
    exact .nil behind

/-- Behind the same text there is only one cursor. -/
theorem unique {other : Cursor} (h : cursor.Reads u behind) (h' : cursor.Reads u other) :
    behind = other := by
  obtain ⟨here, rest⟩ := behind
  obtain ⟨there, rest'⟩ := other
  have hrest : rest = rest' := List.append_cancel_left (h.rest.symm.trans h'.rest)
  have hhere : here = there := h.here.trans h'.here.symm
  rw [hrest, hhere]

theorem length_lt (h : cursor.Reads u behind) (hu : u ≠ []) :
    behind.rest.length < cursor.rest.length := by
  have hpos : 0 < u.length := List.length_pos_iff.mpr hu
  rw [h.rest, List.length_append]
  omega

end Cursor.Reads

/-- The place `after` is the place `before`, or it lies in the text ahead of a cursor. -/
def Ahead (cursor : Cursor) (before after : Offset) : Prop :=
  after = before ∨ ∃ lexeme behind, cursor.Reads lexeme behind ∧ after = behind.here

theorem Ahead.refl (cursor : Cursor) (place : Offset) : Ahead cursor place place := .inl rfl

theorem Ahead.trans {cursor : Cursor} {first second third : Offset}
    (h : Ahead cursor first second) (h' : Ahead cursor second third) :
    Ahead cursor first third := by
  rcases h' with rfl | hread
  · exact h
  · exact .inr hread

/-- What lies ahead of a cursor further on lies ahead of the first one too. -/
theorem Ahead.of_reads {cursor behind : Cursor} {lexeme : List Char} {before after : Offset}
    (hread : cursor.Reads lexeme behind) (h : Ahead behind before after) :
    Ahead cursor before after := by
  rcases h with rfl | ⟨more, last, hmore, rfl⟩
  · exact .inl rfl
  · exact .inr ⟨lexeme ++ more, last, hread.trans hmore, rfl⟩

/-- A failure that is recorded at the cursor leaves the furthest place, or moves it there. -/
theorem Ahead.record {cursor : Cursor} {before : Offset} {after : Furthest}
    (h : Ahead cursor before after.place) (rule : Rule) (earlier : Nat) :
    Ahead cursor before (after.record rule cursor.here earlier).place := by
  unfold Furthest.record
  -- Only in the third case does the furthest place change; then it is the cursor.
  split
  · exact h
  · split
    · exact h
    · split
      · exact .inr ⟨[], cursor, .nil cursor, rfl⟩
      · exact h

/-! ## Layer B: outcomes -/

namespace Recogniser

/-- What a recogniser reads from a cursor, and the cursor behind it. -/
def outcome (p : Recogniser α) (cursor : Cursor) : Option (α × Cursor) := (p cursor .initial).1

/-- The account of failures does not decide what is read; what is read starts at the cursor, and a
new furthest failure lies in the text ahead of the cursor. -/
class Lawful (p : Recogniser α) : Prop where
  run (cursor : Cursor) (state : Furthest) :
    ∃ after, p cursor state = (p.outcome cursor, after) ∧ Ahead cursor state.place after.place
  reads {cursor : Cursor} {a : α} {behind : Cursor} :
    p.outcome cursor = some (a, behind) → ∃ lexeme, cursor.Reads lexeme behind

/-- A recogniser that leaves the account alone. -/
theorem Lawful.of_silent {p : Recogniser α}
    (hrun : ∀ cursor state, p cursor state = (p.outcome cursor, state))
    (hreads : ∀ {cursor a behind}, p.outcome cursor = some (a, behind) →
      ∃ lexeme, cursor.Reads lexeme behind) : Lawful p where
  run cursor state := ⟨state, hrun cursor state, .refl cursor state.place⟩
  reads := hreads

theorem fst_run (p : Recogniser α) [Lawful p] (cursor : Cursor) (state : Furthest) :
    (p cursor state).1 = p.outcome cursor := by
  -- The law holds of every state, so of the initial one as well.
  obtain ⟨after, hrun, -⟩ := Lawful.run (p := p) cursor state
  rw [hrun]

/-! ### Single steps -/

@[simp] theorem outcome_pure (a : α) (cursor : Cursor) :
    (pure a : Recogniser α).outcome cursor = some (a, cursor) := rfl

/-- A result without reading records nothing. -/
instance (a : α) : Lawful (pure a : Recogniser α) :=
  .of_silent (fun _ _ => rfl) fun {cursor _ _} h => by
    cases h
    exact ⟨[], .nil cursor⟩

instance : Lawful (fail : Recogniser α) := .of_silent (fun _ _ => rfl) fun h => nomatch h

@[simp] theorem outcome_place (cursor : Cursor) :
    place.outcome cursor = some (cursor.here, cursor) := rfl

instance : Lawful place := .of_silent (fun _ _ => rfl) fun {cursor _ _} h => by
  cases h
  exact ⟨[], .nil cursor⟩

/-- Neither a symbol nor its absence is recorded. -/
theorem symbol_run (c : Char) (cursor : Cursor) (state : Furthest) :
    symbol c cursor state = ((symbol c).outcome cursor, state) := by
  unfold outcome symbol
  cases cursor.rest with
  | nil => rfl
  | cons d rest =>
    dsimp only
    split <;> rfl

/-- A symbol is read where it stands. -/
theorem outcome_symbol_iff {c : Char} {cursor behind : Cursor} :
    (symbol c).outcome cursor = some ((), behind) ↔ cursor.Reads [c] behind := by
  obtain ⟨here, text⟩ := cursor
  obtain ⟨there, rest⟩ := behind
  unfold outcome symbol
  constructor
  · intro h
    cases text with
    | nil => cases h
    | cons d text =>
      dsimp only at h
      split at h
      · next hc =>
        cases h
        exact ⟨by rw [hc]; rfl, rfl⟩
      · cases h
  · -- The symbol stands in front, so the two texts agree behind it.
    rintro ⟨hrest, hhere⟩
    dsimp only at hrest hhere
    subst hrest hhere
    simp [Cursor.advance]

theorem outcome_symbol_of_ne {c d : Char} (h : c ≠ d) (here : Offset) (rest : List Char) :
    (symbol c).outcome ⟨here, d :: rest⟩ = none := by
  simp [outcome, symbol, h]

instance (c : Char) : Lawful (symbol c) :=
  .of_silent (symbol_run c) fun h => ⟨[c], outcome_symbol_iff.mp h⟩

@[simp] theorem outcome_skipWhile (test : Char → Bool) (cursor : Cursor) :
    (skipWhile test).outcome cursor =
      some ((), cursor.advance (cursor.rest.takeWhile test) (cursor.rest.dropWhile test)) := rfl

/-- Skipping records nothing and reads what it skips. -/
instance (test : Char → Bool) : Lawful (skipWhile test) :=
  .of_silent (fun _ _ => rfl) fun {cursor _ _} h => by
    cases h
    exact ⟨_, .advance List.takeWhile_append_dropWhile.symm⟩

/-- A lexer splits a text. -/
class LawfulLexer (lexer : List Char → Option (List Char × List Char)) : Prop where
  split {text lexeme rest : List Char} : lexer text = some (lexeme, rest) → text = lexeme ++ rest

/-- A lexeme is what its lexer splits off. -/
@[simp] theorem outcome_lexeme (lexer : List Char → Option (List Char × List Char))
    (cursor : Cursor) :
    (lexeme lexer).outcome cursor =
      (lexer cursor.rest).map fun split => (split.1, cursor.advance split.1 split.2) := by
  unfold outcome lexeme
  cases lexer cursor.rest <;> rfl

/-- A lexeme records nothing and reads what its lexer splits off. -/
instance (lexer : List Char → Option (List Char × List Char)) [LawfulLexer lexer] :
    Lawful (lexeme lexer) := by
  refine .of_silent (fun cursor state => ?_) fun {cursor a behind} h => ?_
  · unfold outcome lexeme
    cases lexer cursor.rest <;> rfl
  · rw [outcome_lexeme, Option.map_eq_some_iff] at h
    obtain ⟨⟨lexeme, rest⟩, hsplit, heq⟩ := h
    cases heq
    exact ⟨lexeme, .advance (LawfulLexer.split hsplit)⟩

@[simp] theorem outcome_atEnd (cursor : Cursor) :
    atEnd.outcome cursor = if cursor.rest = [] then some ((), cursor) else none := by
  unfold outcome atEnd
  split <;> rfl

/-- The end of the text records nothing and reads nothing. -/
instance : Lawful atEnd := by
  refine .of_silent (fun cursor state => ?_) fun {cursor a behind} h => ?_
  · unfold outcome atEnd
    split <;> rfl
  · rw [outcome_atEnd] at h
    split at h
    · cases h
      exact ⟨[], .nil cursor⟩
    · cases h

/-! ### Compound recognisers -/

@[simp] theorem outcome_named (rule : Rule) (p : Recogniser α) (cursor : Cursor) :
    (named rule p).outcome cursor = p.outcome cursor := by
  unfold outcome named
  rcases p cursor .initial with ⟨_ | found, after⟩ <;> rfl

/-- The failure of a rule is recorded at the cursor, which lies ahead of itself. -/
instance (rule : Rule) (p : Recogniser α) [Lawful p] : Lawful (named rule p) where
  run cursor state := by
    obtain ⟨after, hrun, hafter⟩ := Lawful.run (p := p) cursor state
    rw [outcome_named]
    unfold named
    rw [hrun]
    cases p.outcome cursor with
    | none => exact ⟨_, rfl, hafter.record rule _⟩
    | some found => exact ⟨after, rfl, hafter⟩
  reads h := by
    rw [outcome_named] at h
    exact Lawful.reads h

theorem bind_run (p : Recogniser α) (f : α → Recogniser β) (cursor : Cursor) (state : Furthest) :
    (p >>= f) cursor state =
      match p cursor state with
      | (none, after) => (none, after)
      | (some (a, behind), after) => f a behind after := rfl

/-- The outcome of a sequence is the outcome of its second part, behind that of its first. -/
@[simp] theorem outcome_bind (p : Recogniser α) (f : α → Recogniser β) [∀ a, Lawful (f a)]
    (cursor : Cursor) :
    (p >>= f).outcome cursor =
      (p.outcome cursor).bind fun found => (f found.1).outcome found.2 := by
  unfold outcome
  rw [bind_run]
  rcases p cursor .initial with ⟨_ | ⟨a, behind⟩, after⟩
  · rfl
  · -- The second part starts with the account of the first, which does not decide.
    exact fst_run (f a) behind after

/-- Both parts of a sequence record what fails ahead of them. -/
instance (p : Recogniser α) (f : α → Recogniser β) [Lawful p] [∀ a, Lawful (f a)] :
    Lawful (p >>= f) where
  run cursor state := by
    obtain ⟨after, hrun, hafter⟩ := Lawful.run (p := p) cursor state
    rw [outcome_bind, bind_run, hrun]
    cases hp : p.outcome cursor with
    | none => exact ⟨after, rfl, hafter⟩
    | some found =>
      obtain ⟨a, behind⟩ := found
      obtain ⟨lexeme, hread⟩ := Lawful.reads hp
      obtain ⟨last, hlast, hplace⟩ := Lawful.run (p := f a) behind after
      exact ⟨last, hlast, hafter.trans (.of_reads hread hplace)⟩
  reads h := by
    rw [outcome_bind, Option.bind_eq_some_iff] at h
    obtain ⟨⟨a, middle⟩, hp, hf⟩ := h
    obtain ⟨u, hu⟩ := Lawful.reads hp
    obtain ⟨v, hv⟩ := Lawful.reads hf
    exact ⟨u ++ v, hu.trans hv⟩

/-- The outcome of a choice is that of its first part, or else of its second. -/
@[simp] theorem outcome_orElse (p q : Recogniser α) [Lawful q] (cursor : Cursor) :
    (orElse p q).outcome cursor = (p.outcome cursor).or (q.outcome cursor) := by
  unfold outcome orElse
  rcases p cursor .initial with ⟨_ | found, after⟩
  · exact fst_run q cursor after
  · rfl

/-- Both parts of a choice start at the same cursor. -/
instance (p q : Recogniser α) [Lawful p] [Lawful q] : Lawful (orElse p q) where
  run cursor state := by
    obtain ⟨after, hrun, hafter⟩ := Lawful.run (p := p) cursor state
    obtain ⟨last, hlast, hplace⟩ := Lawful.run (p := q) cursor after
    rw [outcome_orElse]
    unfold orElse
    rw [hrun]
    cases p.outcome cursor with
    | none => exact ⟨last, hlast, hafter.trans hplace⟩
    | some found => exact ⟨after, rfl, hafter⟩
  reads h := by
    rw [outcome_orElse, Option.or_eq_some_iff] at h
    rcases h with h | ⟨-, h⟩
    · exact Lawful.reads h
    · exact Lawful.reads h

/-! ### Repetitions -/

/-- One round of a repetition, with its account. -/
theorem repeated_run (p : Recogniser α) (limit : Nat) (cursor : Cursor) (state : Furthest) :
    repeated p (limit + 1) cursor state =
      match p cursor state with
      | (none, after) => (some ([], cursor), after)
      | (some (a, behind), after) =>
        (repeated p limit >>= fun others => pure (a :: others)) behind after := rfl

/-- One round of a repetition, without its account. -/
theorem outcome_repeated_succ (p : Recogniser α) (limit : Nat) [Lawful (repeated p limit)]
    (cursor : Cursor) :
    (repeated p (limit + 1)).outcome cursor =
      match p.outcome cursor with
      | none => some ([], cursor)
      | some (a, behind) =>
        ((repeated p limit).outcome behind).map fun found => (a :: found.1, found.2) := by
  unfold outcome
  rw [repeated_run]
  rcases p cursor .initial with ⟨_ | ⟨a, behind⟩, after⟩
  · rfl
  · dsimp only
    rw [fst_run, outcome_bind, Option.map_eq_bind]
    rfl

/-- A repetition is lawful as far as its limit allows. -/
instance Lawful.repeated (p : Recogniser α) [Lawful p] (limit : Nat) :
    Lawful (repeated p limit) := by
  -- On the limit: a round is a phrase and, behind it, a repetition with a smaller limit.
  induction limit with
  | zero => exact inferInstanceAs (Lawful (pure []))
  | succ limit ih =>
    refine ⟨fun cursor state => ?_, fun {cursor as behind} h => ?_⟩
    · obtain ⟨after, hrun, hafter⟩ := Lawful.run (p := p) cursor state
      rw [outcome_repeated_succ, repeated_run, hrun]
      cases hp : p.outcome cursor with
      -- The phrase that is not there any more is attempted, and its failure stays in the account.
      | none => exact ⟨after, rfl, hafter⟩
      | some found =>
        obtain ⟨a, behind⟩ := found
        obtain ⟨lexeme, hread⟩ := Lawful.reads hp
        obtain ⟨last, hlast, hplace⟩ := Lawful.run
          (p := Recogniser.repeated p limit >>= fun others => pure (a :: others)) behind after
        refine ⟨last, ?_, hafter.trans (.of_reads hread hplace)⟩
        rw [outcome_bind] at hlast
        dsimp only
        rw [hlast, Option.map_eq_bind]
        rfl
    · rw [outcome_repeated_succ] at h
      cases hp : p.outcome cursor with
      | none =>
        rw [hp] at h
        cases h
        exact ⟨[], .nil cursor⟩
      | some found =>
        obtain ⟨a, middle⟩ := found
        rw [hp] at h
        obtain ⟨⟨others, last⟩, hothers, heq⟩ := Option.map_eq_some_iff.mp h
        cases heq
        -- The text of the first phrase stands in front of the text of the others.
        obtain ⟨u, hu⟩ := Lawful.reads hp
        obtain ⟨v, hv⟩ := ih.reads hothers
        exact ⟨u ++ v, hu.trans hv⟩

theorem many_run (p : Recogniser α) (cursor : Cursor) :
    many p cursor = repeated p (cursor.rest.length + 1) cursor := rfl

theorem outcome_many (p : Recogniser α) (cursor : Cursor) :
    (many p).outcome cursor = (repeated p (cursor.rest.length + 1)).outcome cursor := rfl

/-- A repetition without a limit is lawful. -/
instance (p : Recogniser α) [Lawful p] : Lawful (many p) where
  run cursor state := by
    rw [outcome_many, many_run]
    exact Lawful.run cursor state
  reads h := by
    rw [outcome_many] at h
    exact Lawful.reads h

/-- Phrases in a row, each taking up some of the text, up to where no further one is read. -/
inductive Chain (p : Recogniser α) : Cursor → List α → Cursor → Prop where
  /-- No phrase is read any more. -/
  | stop {cursor : Cursor} : p.outcome cursor = none → Chain p cursor [] cursor
  /-- A phrase is read, and the chain goes on behind it. -/
  | step {cursor middle behind : Cursor} {a : α} {as : List α} :
      p.outcome cursor = some (a, middle) → middle.rest.length < cursor.rest.length →
      Chain p middle as behind → Chain p cursor (a :: as) behind

/-- A chain is read if the limit allows for the text. -/
theorem Chain.outcome_repeated {p : Recogniser α} [Lawful p] {cursor behind : Cursor}
    {as : List α} (h : Chain p cursor as behind) {limit : Nat}
    (hlimit : cursor.rest.length < limit) :
    (repeated p limit).outcome cursor = some (as, behind) := by
  -- Along the chain: each phrase takes up some of the text, so the limit stays large enough.
  induction h generalizing limit with
  | stop hnone =>
    obtain ⟨limit, rfl⟩ := Nat.exists_eq_succ_of_ne_zero (Nat.ne_zero_of_lt hlimit)
    rw [outcome_repeated_succ, hnone]
  | step hsome hlt _ ih =>
    obtain ⟨limit, rfl⟩ := Nat.exists_eq_succ_of_ne_zero (Nat.ne_zero_of_lt hlimit)
    rw [outcome_repeated_succ, hsome]
    dsimp only
    rw [ih (by omega)]
    rfl

/-- What a repetition reads is a chain, if each phrase takes up some of the text. -/
theorem exists_chain {p : Recogniser α} [Lawful p]
    (hprogress : ∀ {cursor a behind}, p.outcome cursor = some (a, behind) →
      behind.rest.length < cursor.rest.length) {limit : Nat} {cursor behind : Cursor} {as : List α}
    (hlimit : cursor.rest.length < limit)
    (h : (repeated p limit).outcome cursor = some (as, behind)) : Chain p cursor as behind := by
  -- On the limit, which the text ahead never reaches: a round takes up some of the text.
  induction limit generalizing cursor as with
  | zero => exact absurd hlimit (Nat.not_lt_zero _)
  | succ limit ih =>
    rw [outcome_repeated_succ] at h
    cases hp : p.outcome cursor with
    | none =>
      rw [hp] at h
      cases h
      exact .stop hp
    | some found =>
      obtain ⟨a, middle⟩ := found
      rw [hp] at h
      obtain ⟨⟨others, last⟩, hothers, heq⟩ := Option.map_eq_some_iff.mp h
      cases heq
      have hlt := hprogress hp
      exact .step hp hlt (ih (by omega) hothers)

/-- A repetition reads a chain, and its limit never decides. -/
theorem outcome_many_iff {p : Recogniser α} [Lawful p]
    (hprogress : ∀ {cursor a behind}, p.outcome cursor = some (a, behind) →
      behind.rest.length < cursor.rest.length) {cursor behind : Cursor} {as : List α} :
    (many p).outcome cursor = some (as, behind) ↔ Chain p cursor as behind := by
  rw [outcome_many]
  constructor
  · exact exists_chain hprogress (Nat.lt_succ_self _)
  · intro h
    exact h.outcome_repeated (Nat.lt_succ_self _)

end Recogniser

end Interpolation.Grammar
