import Interpolation.Proofs.Grammar.Pairs
import Interpolation.Proofs.Grammar.Token
import Mathlib.Data.List.Forall2

/-!
# Recognisers in lock-step

Two recognisers run in lock-step if they succeed together or fail together, keep the same account of
failures, and find related things.  They may start at cursors of their own: one of them may be ahead
of the other by some spaces, which the other one skips later.  The combinators of recognisers
preserve lock-step, so that it is enough to look at the parts of two recognisers of the same shape.

## Main definitions

- `Together`: two runs with the same end.
- `LockStep`: two recognisers that run together from two cursors.
- `Cursor.Past`: one cursor is ahead of another by spaces.

## Main results

- `LockStep.bind`, `LockStep.orElse`, `LockStep.named`, `LockStep.pairOf`: the combinators.
- `LockStep.star`: a repetition of patterns, against one that skips the spaces first.
-/

namespace Interpolation.Grammar

open Recogniser

variable {α β γ δ : Type}

/-! ## Layer A: sequences associate -/

/-- A recogniser is a state with a failure, so sequences associate and a result without reading is
neutral. -/
instance : LawfulMonad Recogniser :=
  LawfulMonad.mk' Recogniser
    (fun p => by
      funext cursor state
      change (p >>= fun a => pure a) cursor state = _
      rw [bind_run]
      rcases p cursor state with ⟨_ | found, after⟩ <;> rfl)
    (fun _ _ => rfl)
    (fun p f g => by
      funext cursor state
      simp only [bind_run]
      rcases p cursor state with ⟨_ | found, after⟩ <;> rfl)

theorem read_andThen (call : Mode → Rule → Recogniser (List Pair)) (mode : Mode) (p q : Pattern) :
    (p >> q).read call mode = (do
      let first ← p.read call mode
      separator mode
      let second ← q.read call mode
      return first ++ second) := rfl

/-- A symbol, and what is behind the spaces behind it. -/
theorem read_word_andThen (call : Mode → Rule → Recogniser (List Pair)) (mode : Mode)
    (chars : List Char) (p : Pattern) :
    (.word chars >> p : Pattern).read call mode = (do
      let _ ← lexeme (exactly chars)
      separator mode
      p.read call mode) := by
  rw [read_andThen, Pattern.read]
  simp only [bind_assoc, pure_bind, List.nil_append, bind_pure]

/-- What is in front of a symbol, and the symbol. -/
theorem read_andThen_word (call : Mode → Rule → Recogniser (List Pair)) (mode : Mode)
    (p : Pattern) (chars : List Char) :
    (p >> .word chars : Pattern).read call mode = (do
      let pairs ← p.read call mode
      separator mode
      let _ ← lexeme (exactly chars)
      return pairs) := by
  rw [read_andThen, Pattern.read]
  simp only [bind_assoc, pure_bind, List.append_nil]

/-! ## Layer B: runs with the same end -/

/-- Two runs that fail with the same account, or find related things with the same account. -/
inductive Together (R : α → Cursor → β → Cursor → Prop) :
    Option (α × Cursor) × Furthest → Option (β × Cursor) × Furthest → Prop where
  /-- Both fail. -/
  | failed (after : Furthest) : Together R (none, after) (none, after)
  /-- Both succeed, each behind its own cursor. -/
  | found {a : α} {b : β} {behind behind' : Cursor} (after : Furthest) :
      R a behind b behind' → Together R (some (a, behind), after) (some (b, behind'), after)

/-- Started each from a cursor of its own, two recognisers run together. -/
def LockStep (R : α → Cursor → β → Cursor → Prop) (p : Recogniser α) (q : Recogniser β)
    (cursor cursor' : Cursor) : Prop :=
  ∀ state, Together R (p cursor state) (q cursor' state)

namespace LockStep

variable {R S : α → Cursor → β → Cursor → Prop} {T : γ → Cursor → δ → Cursor → Prop}
  {p p' : Recogniser α} {q q' : Recogniser β} {f : α → Recogniser γ} {g : β → Recogniser δ}
  {cursor cursor' : Cursor}

theorem fail : LockStep R fail fail cursor cursor' := fun state => .failed state

theorem pure {a : α} {b : β} (h : R a cursor b cursor') :
    LockStep R (pure a) (pure b) cursor cursor' := fun state => .found state h

/-- What is found first decides how both go on. -/
theorem bind (hp : LockStep R p q cursor cursor')
    (hf : ∀ {a behind b behind'}, q.Gives cursor' b behind' → R a behind b behind' →
      LockStep T (f a) (g b) behind behind') :
    LockStep T (p >>= f) (q >>= g) cursor cursor' := by
  intro state
  have hrun := hp state
  rw [bind_run, bind_run]
  -- Only the two runs matter from here on, and they end alike.
  generalize p cursor state = x at hrun
  generalize hq : q cursor' state = y at hrun
  cases hrun with
  | failed after => exact .failed after
  | found after h => exact hf ⟨state, after, hq⟩ h after

/-- Choices run together if their parts do. -/
theorem orElse (hp : LockStep R p q cursor cursor') (hp' : LockStep R p' q' cursor cursor') :
    LockStep R (Recogniser.orElse p p') (Recogniser.orElse q q') cursor cursor' := by
  intro state
  have hrun := hp state
  unfold Recogniser.orElse
  generalize p cursor state = x at hrun
  generalize q cursor' state = y at hrun
  cases hrun with
  -- Both start their second parts, with the same account.
  | failed after => exact hp' after
  | found after h => exact .found after h

/-- A rule is attempted at one place. -/
theorem named (hp : LockStep R p q cursor cursor) (rule : Rule) :
    LockStep R (named rule p) (named rule q) cursor cursor := by
  intro state
  have hrun := hp state
  unfold Recogniser.named
  generalize p cursor state = x at hrun
  generalize q cursor state = y at hrun
  cases hrun with
  | failed after => exact .failed _
  | found after h => exact .found after h

/-- Related things may be related in a weaker way too. -/
theorem mono (hp : LockStep R p q cursor cursor')
    (h : ∀ {a behind b behind'}, q.Gives cursor' b behind' → R a behind b behind' →
      S a behind b behind') : LockStep S p q cursor cursor' := by
  intro state
  have hrun := hp state
  generalize p cursor state = x at hrun
  generalize hq : q cursor' state = y at hrun
  cases hrun with
  | failed after => exact .failed after
  | found after hR => exact .found after (h ⟨state, after, hq⟩ hR)

theorem of_run_eq (h : ∀ state, p cursor state = p' cursor state)
    (hp : LockStep R p' q cursor cursor') : LockStep R p q cursor cursor' := by
  intro state
  rw [h state]
  exact hp state

theorem map_right {R : α → Cursor → γ → Cursor → Prop} {f : β → γ}
    (hp : LockStep (fun a behind b behind' => R a behind (f b) behind') p q cursor cursor') :
    LockStep R p (q >>= fun b => Pure.pure (f b)) cursor cursor' := by
  rw [← bind_pure p]
  exact hp.bind fun _ hR => .pure hR

/-- A rule that leaves its pair. -/
theorem pairOf {mode : Mode} (hmode : mode ≠ .atomic) {rule : Rule} {p : Recogniser (List Pair)}
    {R : List Pair → Cursor → β → Cursor → Prop}
    (hp : LockStep (fun inner behind b behind' =>
      R [⟨rule, cursor.here.bytes, cursor.textTo behind, inner⟩] behind b behind') p q
      cursor cursor) :
    LockStep R (pairOf mode rule p) (Recogniser.named rule q) cursor cursor := by
  refine .named (fun state => ?_) rule
  have hrun := hp state
  -- Asking for the cursor changes neither the cursor nor the account.
  have hcurrent : (current >>= fun start => p >>= fun inner => current >>= fun stop =>
      (Pure.pure (if mode = .atomic then inner
        else [⟨rule, start.here.bytes, start.textTo stop, inner⟩]) : Recogniser (List Pair)))
      cursor state = (p >>= fun inner => current >>= fun stop =>
        Pure.pure (if mode = .atomic then inner
          else [⟨rule, cursor.here.bytes, cursor.textTo stop, inner⟩])) cursor state := rfl
  rw [hcurrent, bind_run]
  generalize p cursor state = x at hrun
  generalize q cursor state = y at hrun
  cases hrun with
  | failed after => exact .failed after
  | @found inner b behind behind' after h =>
    -- The rule is no token, so it leaves its pair.
    have hpair : (if mode = .atomic then inner
        else [⟨rule, cursor.here.bytes, cursor.textTo behind, inner⟩]) =
        [⟨rule, cursor.here.bytes, cursor.textTo behind, inner⟩] := if_neg hmode
    refine .found after ?_
    rwa [hpair]

end LockStep

/-! ## Layer C: spaces -/

/-- The cursor behind the spaces at a cursor. -/
def Cursor.skip (cursor : Cursor) : Cursor :=
  cursor.advance (cursor.rest.takeWhile isSpace) (cursor.rest.dropWhile isSpace)

/-- A cursor behind some spaces at another cursor. -/
def Cursor.Past (cursor cursor' : Cursor) : Prop := ∃ gap : Gap, cursor'.Reads gap.chars cursor

namespace Cursor

variable {cursor cursor' : Cursor}

theorem Past.refl (cursor : Cursor) : cursor.Past cursor := ⟨⟨[], nofun⟩, .nil cursor⟩

theorem skip_past (cursor : Cursor) : cursor.skip.Past cursor :=
  ⟨⟨_, forall_mem_takeWhile isSpace cursor.rest⟩,
    .advance List.takeWhile_append_dropWhile.symm⟩

theorem Past.length_le (h : cursor.Past cursor') : cursor.rest.length ≤ cursor'.rest.length := by
  obtain ⟨gap, hgap⟩ := h
  rw [hgap.rest, List.length_append]
  exact Nat.le_add_left _ _

theorem Past.trans {cursor'' : Cursor} (h : cursor.Past cursor') (h' : cursor'.Past cursor'') :
    cursor.Past cursor'' := by
  obtain ⟨gap, hgap⟩ := h
  obtain ⟨gap', hgap'⟩ := h'
  exact ⟨⟨gap'.chars ++ gap.chars, List.forall_mem_append.mpr ⟨gap'.spaces, gap.spaces⟩⟩,
    hgap'.trans hgap⟩

/-- What is behind the spaces does not depend on how many of them are skipped before. -/
theorem Past.skip_eq (h : cursor.Past cursor') : cursor'.skip = cursor.skip := by
  obtain ⟨gap, hgap⟩ := h
  -- Both read the same text from the cursor further back, so they end at the same place.
  have hskip : cursor'.Reads (gap.chars ++ cursor.rest.takeWhile isSpace) cursor.skip :=
    hgap.trans (.advance List.takeWhile_append_dropWhile.symm)
  have hskip' : cursor'.Reads (cursor'.rest.takeWhile isSpace) cursor'.skip :=
    .advance List.takeWhile_append_dropWhile.symm
  rw [hgap.rest, List.takeWhile_append_of_pos gap.spaces] at hskip'
  exact hskip'.unique hskip

end Cursor

theorem space_run (cursor : Cursor) (state : Furthest) :
    space cursor state = (some ((), cursor.skip), state) := rfl

namespace LockStep

variable {cursor cursor' : Cursor}

/-- Spaces are skipped up to the same place. -/
theorem space (h : cursor.Past cursor') :
    LockStep (fun _ behind _ behind' => behind = behind') (separator .free) space
      cursor cursor' := by
  intro state
  have hskip : separator .free cursor state = (some ((), cursor'.skip), state) := by
    rw [h.skip_eq]
    rfl
  rw [hskip, space_run]
  exact .found state rfl

/-- A symbol is a word of one character. -/
theorem symbol (c : Char) (cursor : Cursor) :
    LockStep (fun _ behind _ behind' => behind = behind') (lexeme (exactly [c]))
      (Recogniser.symbol c) cursor cursor := by
  intro state
  unfold lexeme Recogniser.symbol exactly
  cases cursor.rest with
  | nil => exact .failed state
  | cons d rest =>
    -- Both look at the one character that stands there.
    by_cases hc : c = d
    · subst hc
      simp only [List.isPrefixOf, beq_self_eq_true, Bool.and_self, if_true]
      exact .found state rfl
    · have hne : (c == d) = false := beq_false_of_ne hc
      simp only [List.isPrefixOf, hne, Bool.false_and, Bool.false_eq_true, if_false, hc]
      exact .failed state

/-- A symbol that opens something, and the spaces behind it. -/
theorem opening {T : γ → Cursor → δ → Cursor → Prop} {p : Recogniser γ} {q : Recogniser δ}
    (c : Char) (cursor : Cursor)
    (h : ∀ {middle : Cursor}, middle.rest.length < cursor.rest.length →
      LockStep T p q middle middle) :
    LockStep T
      (do
        let _ ← lexeme (exactly [c])
        separator .free
        p)
      (do
        Recogniser.symbol c
        Grammar.space
        q) cursor cursor := by
  refine (symbol c cursor).bind fun {_ middle _ _} hgives hsame => ?_
  subst hsame
  obtain ⟨state, after, hrun⟩ := hgives
  -- The symbol takes up a character, which makes room for the induction in `h`.
  have hread : cursor.Reads [c] middle := by
    rw [← outcome_symbol_iff, ← fst_run _ cursor state, hrun]
  have hlt := hread.length_lt (List.cons_ne_nil _ _)
  intro state
  have hle := middle.skip_past.length_le
  exact h (Nat.lt_of_le_of_lt hle hlt) state

/-- Spaces, and the symbol that closes something. -/
theorem closing {T : γ → Cursor → δ → Cursor → Prop} {a : γ} {b : δ} (c : Char)
    (hpast : cursor.Past cursor') (h : ∀ behind, T a behind b behind) :
    LockStep T
      (do
        separator .free
        let _ ← lexeme (exactly [c])
        return a)
      (do
        Grammar.space
        Recogniser.symbol c
        return b) cursor cursor' := by
  refine (space hpast).bind fun _ hspace => ?_
  subst hspace
  refine (symbol c _).bind fun _ hclose => ?_
  subst hclose
  exact .pure (h _)

/-! ## Layer D: repetitions -/

/-- Phrases that are related one by one, up to spaces behind the last one. -/
def InARow (E : List Pair → β → Prop) (all : List (List Pair)) (behind : Cursor) (bs : List β)
    (behind' : Cursor) : Prop :=
  List.Forall₂ E all bs ∧ behind.Past behind'

/-- A repetition never fails. -/
theorem exists_repeated (p : Recogniser α) (limit : Nat) (cursor : Cursor) (state : Furthest) :
    ∃ all behind after, Recogniser.repeated p limit cursor state = (some (all, behind), after) := by
  -- On the limit: a phrase that fails ends the repetition with success.
  induction limit generalizing cursor state with
  | zero => exact ⟨[], cursor, state, rfl⟩
  | succ limit ih =>
    rw [repeated_run]
    rcases p cursor state with ⟨_ | ⟨a, middle⟩, after⟩
    · exact ⟨[], cursor, after, rfl⟩
    · obtain ⟨all, behind, last, hrun⟩ := ih middle after
      refine ⟨a :: all, behind, last, ?_⟩
      dsimp only
      rw [bind_run, hrun]
      rfl

/-- Once the first of a repetition is read, there is no way back. -/
theorem orElse_run_of_first {p r : Recogniser α} {q : Recogniser β} {f : α → List β → α} {a : α}
    {middle : Cursor} {state after : Furthest} (h : p cursor state = (some (a, middle), after)) :
    Recogniser.orElse (p >>= fun first => many q >>= fun others => Pure.pure (f first others)) r
      cursor state = (many q >>= fun others => Pure.pure (f a others)) middle after := by
  obtain ⟨all, behind, last, hmany⟩ := exists_repeated q (middle.rest.length + 1) middle after
  unfold Recogniser.orElse
  rw [bind_run, h]
  dsimp only
  rw [bind_run, many_run, hmany]
  rfl

section Repetition

variable {E : List Pair → β → Prop} {p : Recogniser (List Pair)} {q : Recogniser β} {length : Nat}
  (hp : ∀ {cursor : Cursor}, cursor.rest.length < length →
    LockStep (fun pairs behind b behind' => E pairs b ∧ behind.Past behind') p q cursor cursor)
  (hprogress : ∀ {cursor behind : Cursor} {b : β}, q.Gives cursor b behind →
    behind.rest.length < cursor.rest.length)

include hp hprogress

/-- Both go on as long as there is something to read, if their limits allow for it. -/
theorem repeated {limit limit' : Nat} (hlength : cursor'.rest.length < length)
    (hlimit : cursor.rest.length < limit) (hlimit' : cursor'.rest.length < limit')
    (hpast : cursor.Past cursor') :
    LockStep (InARow E) (Recogniser.repeated (do separator .free; p) limit)
      (Recogniser.repeated (do Grammar.space; q) limit') cursor cursor' := by
  -- On the limit of the first; that of the second is bounded by its own text.
  induction limit generalizing limit' cursor cursor' with
  | zero => exact absurd hlimit (Nat.not_lt_zero _)
  | succ limit ih =>
    obtain ⟨limit', rfl⟩ := Nat.exists_eq_succ_of_ne_zero (Nat.ne_zero_of_lt hlimit')
    intro state
    have hskip := hpast.skip_eq
    have hle := (cursor.skip_past).length_le
    have hle' := hpast.length_le
    have hrun := hp (Nat.lt_of_le_of_lt (Nat.le_trans hle hle') hlength) state
    -- Both skip the spaces and arrive at the same cursor.
    have hone : (do separator .free; p : Recogniser (List Pair)) cursor state =
        p cursor.skip state := rfl
    have hone' : (do Grammar.space; q : Recogniser β) cursor' state = q cursor'.skip state := rfl
    rw [repeated_run, repeated_run, hone, hone', hskip]
    generalize p cursor.skip state = x at hrun
    generalize hq : q cursor.skip state = y at hrun
    cases hrun with
    -- The phrase is not there: the cursors stay where they were, up to spaces.
    | failed after => exact .found after ⟨.nil, hpast⟩
    | @found pairs b middle middle' after h =>
      -- The phrase has taken up some of the text, so both limits still allow for the rest.
      have hlt := hprogress ⟨state, after, hq⟩
      have hle'' := h.2.length_le
      have hothers : LockStep (InARow E) (Recogniser.repeated (do separator .free; p) limit)
          (Recogniser.repeated (do Grammar.space; q) limit') middle middle' :=
        ih (by omega) (by omega) (by omega) h.2
      have hall : LockStep (InARow E)
          (Recogniser.repeated (do separator .free; p) limit >>= fun others =>
            Pure.pure (pairs :: others))
          (Recogniser.repeated (do Grammar.space; q) limit' >>= fun others =>
            Pure.pure (b :: others)) middle middle' :=
        hothers.bind fun _ hmore => .pure ⟨.cons h.1 hmore.1, hmore.2⟩
      exact hall after

/-- A repetition of patterns skips the spaces in front of it, also where there is nothing to
repeat. -/
theorem star (hlength : cursor'.rest.length < length) (hpast : cursor.Past cursor') :
    LockStep
      (fun pairs behind bs behind' => ∃ all, pairs = all.flatten ∧ InARow E all behind bs behind')
      (do
        separator .free
        Recogniser.orElse
          (do
            let first ← p
            let others ← many (do separator .free; p)
            return first ++ others.flatten)
          (return []))
      (many (do Grammar.space; q)) cursor cursor' := by
  intro state
  have hle := (cursor.skip_past).length_le
  have hle' := hpast.length_le
  have hrun := hp (Nat.lt_of_le_of_lt (Nat.le_trans hle hle') hlength) state
  -- The pattern reads its first phrase by itself, the recogniser in the first round of its
  -- repetition.
  have hone : (do
      separator .free
      Recogniser.orElse
        (do
          let first ← p
          let others ← many (do separator .free; p)
          return first ++ others.flatten)
        (return []) : Recogniser (List Pair)) cursor state =
      Recogniser.orElse (p >>= fun first => many (do separator .free; p) >>= fun others =>
        Pure.pure (first ++ others.flatten)) (Pure.pure []) cursor.skip state := rfl
  have hone' : (do Grammar.space; q : Recogniser β) cursor' state = q cursor.skip state := by
    rw [← hpast.skip_eq]
    rfl
  rw [many_run, repeated_run, hone, hone']
  generalize hfirst : p cursor.skip state = x at hrun
  generalize hq : q cursor.skip state = y at hrun
  cases hrun with
  -- Without a first phrase the pattern reads nothing but has skipped the spaces.
  | failed after =>
    unfold Recogniser.orElse
    rw [bind_run, hfirst]
    exact .found after ⟨[], rfl, .nil, cursor.skip_past.trans hpast⟩
  | @found pairs b middle middle' after h =>
    have hlt := hprogress ⟨state, after, hq⟩
    have hle'' := h.2.length_le
    -- Behind the first phrase both repeat, with different limits.
    have hothers : LockStep (InARow E) (many (do separator .free; p))
        (Recogniser.repeated (do Grammar.space; q) cursor'.rest.length) middle middle' :=
      repeated hp hprogress (by omega) (Nat.lt_succ_self _) (by omega) h.2
    have hall : LockStep
        (fun pairs behind bs behind' => ∃ all, pairs = all.flatten ∧ InARow E all behind bs behind')
        (many (do separator .free; p) >>= fun others => Pure.pure (pairs ++ others.flatten))
        (Recogniser.repeated (do Grammar.space; q) cursor'.rest.length >>= fun others =>
          Pure.pure (b :: others)) middle middle' :=
      hothers.bind fun _ hmore => .pure ⟨_ :: _, rfl, .cons h.1 hmore.1, hmore.2⟩
    rw [orElse_run_of_first hfirst]
    exact hall after

end Repetition

end LockStep

end Interpolation.Grammar
