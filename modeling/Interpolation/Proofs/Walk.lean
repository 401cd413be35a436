import Interpolation.Proofs.ClosingToken

/-!
# Walks over a text by byte offsets

A text that is read by byte offsets can only be taken apart between two characters.  A walk is a run
of a program that reads a text in this way: it keeps the offsets that the program computes, and it
stops without a result where the program takes the text apart anywhere else.

## Main definitions

- `IsBoundary`, `InsideCharacter`: the offsets between characters, and those within one.
- `Walk`: the offsets and the result of a run.
- `Walk.sliceFrom`, `Walk.slice`: the ways of taking a text apart.
- `Walk.Returns`: a run that does not stop, with all of its offsets on boundaries.
- `Walk.Yields`: a run that may stop, with all of its offsets on boundaries.

## Main results

- `not_isBoundary_iff`: what is no boundary lies behind the end of the text or inside a character.
- `Walk.Returns.bind`, `Walk.Yields.bind`: a run that does not stop goes on with another one.
- `Walk.sliceFrom_returns`, `Walk.slice_returns`: between boundaries a text can be taken apart.
-/

namespace Interpolation

variable {text : String} {before behind inside : List Char} {n : Nat}

/-! ## Layer A: boundaries -/

/-- A byte offset between two characters of a text, or at one of its ends. -/
def IsBoundary (text : String) (n : Nat) : Prop :=
  ∃ before behind, text.toList = before ++ behind ∧ (extent before).bytes = n

/-- A byte offset between two bytes of one character of a text. -/
def InsideCharacter (text : String) (n : Nat) : Prop :=
  ∃ before c behind, text.toList = before ++ c :: behind ∧
    (extent before).bytes < n ∧ n < (extent (before ++ [c])).bytes

theorem isBoundary_of_eq (h : text.toList = before ++ behind) :
    IsBoundary text (extent before).bytes :=
  ⟨before, behind, h, rfl⟩

/-- Between the bytes of a character no beginning of the text ends. -/
theorem InsideCharacter.not_isBoundary (h : InsideCharacter text n) : ¬ IsBoundary text n := by
  rintro ⟨front, back, htext, rfl⟩
  obtain ⟨before, c, behind, hsplit, hlt, hgt⟩ := h
  rw [htext] at hsplit
  -- A beginning that ends here has `before` as a part, and then at least the character.
  obtain ⟨w, rfl⟩ := prefix_of_bytes_le hsplit.symm (Nat.le_of_lt hlt)
  rw [List.append_assoc] at hsplit
  have hw : w ≠ [] := by
    rintro rfl
    simp at hlt
  obtain ⟨c', w, rfl⟩ := List.exists_cons_of_ne_nil hw
  have hc : c' = c := (List.cons.inj (List.append_cancel_left hsplit)).1
  have hle := bytes_extent_le_append (before ++ [c]) w
  rw [List.append_assoc, List.singleton_append, ← hc] at hle
  rw [hc] at hle hgt
  omega

theorem cutAt_eq_none_iff_not_isBoundary : cutAt n text.toList = none ↔ ¬ IsBoundary text n := by
  constructor
  · rintro hcut ⟨before, behind, htext, rfl⟩
    rw [htext, cutAt_append] at hcut
    cases hcut
  · intro h
    cases hcut : cutAt n text.toList with
    | none => rfl
    -- The halves say that the offset is a boundary.
    | some halves => exact absurd ⟨halves.1, halves.2, cutAt_eq_some_iff.mp hcut⟩ h

/-! ## Layer B: walks -/

/-- A run of a program over a text. -/
structure Walk (α : Type) where
  /-- The byte offsets that the program computes. -/
  offsets : List Nat
  /-- What it returns, unless it stops. -/
  result : Option α

namespace Walk

variable {α β : Type}

instance : Monad Walk where
  pure a := ⟨[], some a⟩
  bind w next :=
    match w.result with
    | none => ⟨w.offsets, none⟩
    | some a => ⟨w.offsets ++ (next a).offsets, (next a).result⟩

/-- Stops. -/
def stop : Walk α := ⟨[], none⟩

/-- Computes an offset. -/
def visit (n : Nat) : Walk Unit := ⟨[n], some ()⟩

/-- Calls something that may stop. -/
def attempt (result : Option α) : Walk α := ⟨[], result⟩

/-- The text from an offset on.  Only a boundary is an offset of the text. -/
def sliceFrom (text : String) (start : Nat) : Walk (List Char) :=
  attempt ((cutAt start text.toList).map Prod.snd)

/-- The text between two offsets. -/
def slice (text : String) (start stop : Nat) : Walk (List Char) :=
  attempt ((cutAt start text.toList).bind fun halves =>
    if start ≤ stop then (cutAt (stop - start) halves.2).map Prod.fst else none)

/-- The run does not stop, it returns `a`, and all of its offsets are boundaries of the text. -/
structure Returns (text : String) (w : Walk α) (a : α) : Prop where
  /-- It returns `a`. -/
  result : w.result = some a
  /-- No offset is inside a character, or behind the end. -/
  offsets : ∀ n ∈ w.offsets, IsBoundary text n

/-- The run returns what `result` is, or stops where that is nothing, and all of its offsets are
boundaries of the text. -/
structure Yields (text : String) (w : Walk α) (result : Option α) : Prop where
  /-- It returns what it should, and stops where it should. -/
  result : w.result = result
  /-- No offset is inside a character, or behind the end. -/
  offsets : ∀ n ∈ w.offsets, IsBoundary text n

/-! ## Layer C: runs that return -/

theorem pure_returns (text : String) (a : α) : (pure a : Walk α).Returns text a :=
  ⟨rfl, fun _ hn => absurd hn List.not_mem_nil⟩

theorem visit_returns (h : IsBoundary text n) : (visit n).Returns text () :=
  ⟨rfl, fun _ hm => List.mem_singleton.mp hm ▸ h⟩

theorem attempt_returns {result : Option α} {a : α} (h : result = some a) :
    (attempt result).Returns text a :=
  ⟨h, fun _ hn => absurd hn List.not_mem_nil⟩

/-- A run stops where its first part stops. -/
theorem bind_of_stopped {w : Walk α} (h : w.result = none) (next : α → Walk β) :
    w >>= next = ⟨w.offsets, none⟩ := by
  simp only [Bind.bind, h]

theorem Returns.yields {w : Walk α} {a : α} (h : w.Returns text a) : w.Yields text (some a) :=
  ⟨h.result, h.offsets⟩

theorem Yields.returns {w : Walk α} {a : α} (h : w.Yields text (some a)) : w.Returns text a :=
  ⟨h.result, h.offsets⟩

theorem attempt_yields (text : String) (result : Option α) :
    (attempt result).Yields text result :=
  ⟨rfl, fun _ hn => absurd hn List.not_mem_nil⟩

/-- A run goes on where it does not stop. -/
theorem Yields.bind {w : Walk α} {next : α → Walk β} {result : Option α} {after : α → Option β}
    (hw : w.Yields text result)
    (hnext : ∀ a, result = some a → (next a).Yields text (after a)) :
    (w >>= next).Yields text (result.bind after) := by
  cases result with
  | none =>
    rw [bind_of_stopped hw.result next]
    exact ⟨rfl, hw.offsets⟩
  | some a =>
    have hbind : w >>= next = ⟨w.offsets ++ (next a).offsets, (next a).result⟩ := by
      simp only [Bind.bind, hw.result]
    have hafter := hnext a rfl
    rw [hbind]
    refine ⟨hafter.result, fun n hn => ?_⟩
    rcases List.mem_append.mp hn with hfirst | hsecond
    · exact hw.offsets n hfirst
    · exact hafter.offsets n hsecond

/-- What a run does with its result has no offsets. -/
theorem Yields.map {w : Walk α} {result : Option α} (hw : w.Yields text result) (f : α → β) :
    (do let a ← w
        pure (f a)).Yields text (result.map f) := by
  rw [Option.map_eq_bind]
  exact hw.bind fun a _ => (pure_returns text (f a)).yields

/-- Behind a run that returns, a run that may stop. -/
theorem Yields.next {w : Walk α} {next : α → Walk β} {a : α} {result : Option β}
    (hw : w.Returns text a) (hnext : (next a).Yields text result) :
    (w >>= next).Yields text result := by
  have hafter : ∀ a', some a = some a' → (next a').Yields text result := by
    rintro _ ⟨⟩
    exact hnext
  exact hw.yields.bind hafter

/-- A run that returns goes on with one that returns. -/
theorem Returns.bind {w : Walk α} {next : α → Walk β} {a : α} {b : β} (hw : w.Returns text a)
    (hnext : (next a).Returns text b) : (w >>= next).Returns text b :=
  (Yields.next hw hnext.yields).returns

theorem sliceFrom_returns (h : text.toList = before ++ behind) :
    (sliceFrom text (extent before).bytes).Returns text behind := by
  apply attempt_returns
  rw [h, cutAt_append]
  rfl

theorem slice_returns (h : text.toList = before ++ (inside ++ behind)) :
    (slice text (extent before).bytes (extent (before ++ inside)).bytes).Returns text inside := by
  apply attempt_returns
  rw [h, cutAt_append, Option.bind_some, if_pos (bytes_extent_le_append before inside)]
  -- The second cut counts from the first one.
  rw [extent_append, Offset.bytes_add, Nat.add_sub_cancel_left, cutAt_append]
  rfl

end Walk

end Interpolation
