import Interpolation.Proofs.Balance
import Interpolation.Proofs.Slice

/-!
# The scan for a closing token

The scan walks over a text and keeps what is open.  Two facts hold at each place it comes to: the
text behind it comes apart as the nesting says, and no closing token in it counted.  They decide
what the scan finds: it goes on until a token counts, a bracket does not fit, or the text ends, and
each of these ends fixes the outcome.

## Main definitions

- `NoneLive`: no closing token that starts inside a text counts.
- `Scanned`: the invariant of the scan.
- `Stop`: the ends of a scan, with the outcome of each.

## Main results

- `Scanned.scanBody`: a scan goes on from any place it comes to.
- `scanBody_eq_iff`: a scan has the outcome of the end it comes to, and of no other.
- `bodyOf_eq_some_iff`: a body is found exactly up to the first token that counts.
- `bodyOf_eq_none_iff`: none is found exactly if the token does not occur, or nowhere counts and
  the text is balanced.
-/

namespace Interpolation

variable {closing : List Char} {here : Offset} {u text rest : List Char} {nesting next : Nesting}

/-! ## Layer A: the invariant -/

/-- No closing token that starts inside `u`, which `rest` follows, stands behind a balanced text. -/
def NoneLive (closing u rest : List Char) : Prop :=
  ∀ v w, u = v ++ w → w ≠ [] → Balanced v → ¬ closing <+: w ++ rest

theorem NoneLive.nil (closing rest : List Char) : NoneLive closing [] rest := by
  intro v w hvw hw
  exact absurd (List.append_eq_nil_iff.mp hvw.symm).2 hw

/-- Tokens inside a longer text: inside its first part, or behind that. -/
theorem noneLive_append_iff {v : List Char} :
    NoneLive closing (u ++ v) rest ↔
      NoneLive closing u (v ++ rest) ∧
        ∀ a b, v = a ++ b → b ≠ [] → Balanced (u ++ a) → ¬ closing <+: b ++ rest := by
  constructor
  · intro h
    constructor
    · intro a b hab hb hbalanced
      subst hab
      have hlong := h a (b ++ v) (List.append_assoc a b v) (by simp [hb]) hbalanced
      rwa [List.append_assoc] at hlong
    · intro a b hab hb hbalanced
      subst hab
      exact h (u ++ a) b (List.append_assoc u a b).symm hb hbalanced
  · rintro ⟨hfirst, hbehind⟩ a b hab hb hbalanced
    -- A token starts in the first part or in the second one.
    rcases List.append_eq_append_iff.mp hab with ⟨w, rfl, rfl⟩ | ⟨w, rfl, rfl⟩
    · exact hbehind w b rfl hb hbalanced
    · -- Where the parts meet the token starts in the second one.
      by_cases hw : w = []
      · subst hw
        rw [List.append_nil] at hbehind
        exact hbehind [] v rfl hb (by simpa using hbalanced)
      · rw [List.append_assoc]
        exact hfirst a w rfl hw hbalanced

/-- One more character: it is where a token might start. -/
theorem noneLive_concat_iff {c : Char} :
    NoneLive closing (u ++ [c]) rest ↔
      NoneLive closing u (c :: rest) ∧ (Balanced u → ¬ closing <+: c :: rest) := by
  rw [noneLive_append_iff]
  refine and_congr_right fun _ => ?_
  constructor
  · intro h hbalanced
    exact h [] [c] rfl (List.cons_ne_nil c []) (by simpa using hbalanced)
  · intro h a b hab hb hbalanced
    -- The new character is the only place in `[c]` to start at.
    rcases List.append_eq_cons_iff.mp hab.symm with ⟨rfl, rfl⟩ | ⟨a', rfl, hnil⟩
    · exact h (by simpa using hbalanced)
    · exact absurd (List.append_eq_nil_iff.mp hnil.symm).2 hb

/-- What holds when the scan has read `u` and `rest` is still to come. -/
structure Scanned (closing : List Char) (here : Offset) (u : List Char) (nesting : Nesting)
    (rest : List Char) : Prop where
  /-- The text that has been read comes apart as the nesting says. -/
  reached : Reached here u nesting
  /-- No closing token in it counted. -/
  noneLive : NoneLive closing u rest

theorem Scanned.start : Scanned closing here [] .closed text where
  reached := .outside (.balanced .nil)
  noneLive := .nil closing text

/-- The step of the scan keeps the invariant. -/
theorem Scanned.step {c : Char} (h : Scanned closing here u nesting (c :: rest))
    (hlive : ¬ (nesting = .closed ∧ closing <+: c :: rest))
    (hstep : nesting.step (here + extent u) c = some next) :
    Scanned closing here (u ++ [c]) next rest where
  reached := h.reached.step hstep
  noneLive := by
    refine noneLive_concat_iff.mpr ⟨h.noneLive, ?_⟩
    intro hbalanced hstarts
    -- Behind a balanced text nothing is open, so a token here would have counted.
    have hrun := run_closed_eq_some_iff.mpr h.reached
    rw [run_closed_eq_closed_iff.mpr hbalanced] at hrun
    cases hrun
    exact hlive ⟨rfl, hstarts⟩

/-- A run of characters in front of what was found. -/
def Body.prepend (u : List Char) (body : Body) : Body := { body with text := u ++ body.text }

/-- The outcome of a scan, seen from further in front. -/
def prependOutcome (u : List Char) (outcome : Except Error (Option Body)) :
    Except Error (Option Body) :=
  outcome.map (Option.map (.prepend u))

@[simp] theorem prependOutcome_error (u : List Char) (e : Error) :
    prependOutcome u (.error e) = .error e := rfl

@[simp] theorem prependOutcome_none (u : List Char) : prependOutcome u (.ok none) = .ok none := rfl

@[simp] theorem prependOutcome_some (u : List Char) (body : Body) :
    prependOutcome u (.ok (some body)) = .ok (some ⟨u ++ body.text, body.rest⟩) := rfl

@[simp] theorem prependOutcome_nil (outcome : Except Error (Option Body)) :
    prependOutcome [] outcome = outcome := by
  rcases outcome with e | (_ | body) <;> rfl

theorem prependOutcome_cons (u : List Char) (c : Char) (outcome : Except Error (Option Body)) :
    prependOutcome u (outcome.map (Option.map (.cons c))) = prependOutcome (u ++ [c]) outcome := by
  rcases outcome with e | (_ | body)
  · rfl
  · rfl
  · simp [prependOutcome, Except.map, Body.cons, Body.prepend]

/-- A scan goes on from any place it comes to. -/
theorem Scanned.scanBody (h : Scanned closing here u nesting rest) :
    scanBody closing .closed here (u ++ rest) =
      prependOutcome u (scanBody closing nesting (here + extent u) rest) := by
  -- From the end: the last character is one step of the scan, which the invariant allows.
  induction u using List.reverseRecOn generalizing nesting rest with
  | nil =>
    have hrun := run_closed_eq_some_iff.mpr h.reached
    cases hrun
    rw [List.nil_append, extent_nil, Offset.add_zero, prependOutcome_nil]
  | append_singleton u c ih =>
    have hrun := run_closed_eq_some_iff.mpr h.reached
    rw [Nesting.run_append] at hrun
    obtain ⟨before, hbefore, hlast⟩ := Option.bind_eq_some_iff.mp hrun
    obtain ⟨after, hstep, hafter⟩ := Option.bind_eq_some_iff.mp hlast
    cases hafter
    obtain ⟨hnone, hhere⟩ := noneLive_concat_iff.mp h.noneLive
    have hscanned : Scanned closing here u before (c :: rest) :=
      ⟨run_closed_eq_some_iff.mp hbefore, hnone⟩
    -- The scan has not stopped at `c`, since no token counts there.
    have hlive : ¬ (before = .closed ∧ closing.isPrefixOf (c :: rest)) := by
      rintro ⟨rfl, hstarts⟩
      exact hhere (run_closed_eq_closed_iff.mp hbefore) (List.isPrefixOf_iff_prefix.mp hstarts)
    rw [List.append_assoc, List.singleton_append, ih hscanned]
    conv_lhs => rw [Interpolation.scanBody, if_neg hlive]
    simp only [hstep]
    rw [prependOutcome_cons, extent_append, Offset.add_assoc]
    rfl

/-! ## Layer B: where a scan ends -/

/-- The ends of a scan, each with its outcome. -/
inductive Stop (closing : List Char) (nesting : Nesting) (here : Offset) :
    List Char → Except Error (Option Body) → Prop where
  /-- A token counts. -/
  | token {rest : List Char} :
      nesting = .closed → Stop closing nesting here (closing ++ rest) (.ok (some ⟨[], rest⟩))
  /-- The text ends, and nothing is open. -/
  | exhausted : nesting = .closed → closing ≠ [] → Stop closing nesting here [] (.ok none)
  /-- The text ends, and something is open. -/
  | unfinished {e : Error} :
      nesting.unfinished? = some e → Stop closing nesting here [] (.error e)
  /-- A closing bracket does not fit. -/
  | misfit {c : Char} {rest : List Char} :
      ¬ (nesting = .closed ∧ closing <+: c :: rest) → nesting.step here c = none →
      Stop closing nesting here (c :: rest)
        (.error (nesting.misfit ⟨c, here⟩ (closing.isPrefixOf (c :: rest))))

theorem unfinished?_eq_none_iff : nesting.unfinished? = none ↔ nesting = .closed := by
  obtain ⟨quote?, brackets⟩ := nesting
  cases quote? <;> cases brackets <;> simp [Nesting.unfinished?, Nesting.closed]

theorem Stop.scanBody {outcome : Except Error (Option Body)}
    (h : Stop closing nesting here rest outcome) :
    scanBody closing nesting here rest = outcome := by
  cases h with
  | @token rest hclosed =>
    have hstarts : closing.isPrefixOf (closing ++ rest) = true :=
      List.isPrefixOf_iff_prefix.mpr (List.prefix_append closing rest)
    rw [Interpolation.scanBody.eq_def, if_pos ⟨hclosed, hstarts⟩, List.drop_left]
  | exhausted hclosed htoken =>
    have hnone := unfinished?_eq_none_iff.mpr hclosed
    have hstarts : closing.isPrefixOf [] = false := by
      cases closing with
      | nil => exact absurd rfl htoken
      -- A token that is not empty does not start at the end of a text.
      | cons c cs => rfl
    simp [Interpolation.scanBody, hstarts, hnone]
  | unfinished he =>
    have hopen : nesting ≠ .closed := by
      intro hclosed
      rw [unfinished?_eq_none_iff.mpr hclosed] at he
      cases he
    simp [Interpolation.scanBody, hopen, he]
  | misfit hlive hstep =>
    rw [← List.isPrefixOf_iff_prefix] at hlive
    rw [Interpolation.scanBody, if_neg hlive]
    simp only [hstep]

/-- From any place it comes to, a scan comes to an end. -/
theorem Scanned.exists_stop (h : Scanned closing here u nesting rest) :
    ∃ v nesting' rest' outcome, u ++ rest = v ++ rest' ∧ Scanned closing here v nesting' rest' ∧
      Stop closing nesting' (here + extent v) rest' outcome := by
  -- Along what is still to come; the step carries the invariant on.
  induction rest generalizing u nesting with
  | nil =>
    by_cases hclosed : nesting = .closed
    · by_cases htoken : closing = []
      · subst htoken
        exact ⟨u, nesting, [] ++ [], _, rfl, h, .token hclosed⟩
      · exact ⟨u, nesting, [], _, rfl, h, .exhausted hclosed htoken⟩
    · cases he : nesting.unfinished? with
      | none => exact absurd (unfinished?_eq_none_iff.mp he) hclosed
      | some e => exact ⟨u, nesting, [], _, rfl, h, .unfinished he⟩
  | cons c cs ih =>
    -- A token that counts comes first, then a bracket without a place.
    by_cases hlive : nesting = .closed ∧ closing <+: c :: cs
    · obtain ⟨hclosed, behind, hbehind⟩ := hlive
      rw [← hbehind] at h ⊢
      exact ⟨u, nesting, _, _, rfl, h, .token hclosed⟩
    · cases hstep : nesting.step (here + extent u) c with
      | none => exact ⟨u, nesting, c :: cs, _, rfl, h, .misfit hlive hstep⟩
      | some next =>
        have hnext := ih (h.step hlive hstep)
        rwa [List.append_assoc, List.singleton_append] at hnext

/-- A scan has the outcome of the end it comes to, and of no other. -/
theorem scanBody_eq_iff {outcome : Except Error (Option Body)} :
    scanBody closing .closed here text = outcome ↔
      ∃ u nesting rest found, text = u ++ rest ∧ Scanned closing here u nesting rest ∧
        Stop closing nesting (here + extent u) rest found ∧ outcome = prependOutcome u found := by
  constructor
  · -- Every scan has an end, so the outcome is that of the end.
    intro h
    obtain ⟨u, nesting, rest, found, htext, hscanned, hstop⟩ :=
      (Scanned.start : Scanned closing here [] .closed text).exists_stop
    rw [List.nil_append] at htext
    refine ⟨u, nesting, rest, found, htext, hscanned, hstop, ?_⟩
    rw [← h, htext, hscanned.scanBody, hstop.scanBody]
  · rintro ⟨u, nesting, rest, found, rfl, hscanned, hstop, rfl⟩
    rw [hscanned.scanBody, hstop.scanBody]

/-! ## Layer C: what a scan finds -/

/-- A scan finds the body in front of the first token that counts. -/
theorem scanBody_eq_some_iff (here : Offset) {body : Body} :
    scanBody closing .closed here text = .ok (some body) ↔
      text = body.text ++ (closing ++ body.rest) ∧ Balanced body.text ∧
        NoneLive closing body.text (closing ++ body.rest) := by
  rw [scanBody_eq_iff]
  constructor
  · rintro ⟨u, nesting, rest, found, rfl, hscanned, hstop, hfound⟩
    -- Only a token that counts gives a body.
    cases hstop with
    | token hclosed =>
      cases hfound
      have hrun := run_closed_eq_some_iff.mpr hscanned.reached
      rw [hclosed, run_closed_eq_closed_iff] at hrun
      simp only [Body.prepend, List.append_nil]
      exact ⟨trivial, hrun, hscanned.noneLive⟩
    | exhausted => cases hfound
    | unfinished => cases hfound
    | misfit => cases hfound
  · rintro ⟨rfl, hbalanced, hnone⟩
    refine ⟨body.text, .closed, _, _, rfl, ⟨.outside (.balanced hbalanced), hnone⟩, .token rfl, ?_⟩
    simp

/-- A scan runs to the end without a fault if the text is balanced and no token counts. -/
theorem scanBody_eq_none_iff (here : Offset) :
    scanBody closing .closed here text = .ok none ↔
      Balanced text ∧ NoneLive closing text [] ∧ closing ≠ [] := by
  rw [scanBody_eq_iff]
  constructor
  · rintro ⟨u, nesting, rest, found, rfl, hscanned, hstop, hfound⟩
    -- Only a text that is used up gives neither a body nor a fault.
    cases hstop with
    | token => cases hfound
    | exhausted hclosed htoken =>
      have hrun := run_closed_eq_some_iff.mpr hscanned.reached
      rw [hclosed, run_closed_eq_closed_iff] at hrun
      rw [List.append_nil]
      exact ⟨hrun, hscanned.noneLive, htoken⟩
    | unfinished => cases hfound
    | misfit => cases hfound
  · rintro ⟨hbalanced, hnone, htoken⟩
    exact ⟨text, .closed, [], _, (List.append_nil text).symm,
      ⟨.outside (.balanced hbalanced), hnone⟩, .exhausted rfl htoken, rfl⟩

/-- The body of an expression ends in front of the first token that counts. -/
theorem bodyOf_eq_some_iff {body : Body} :
    bodyOf closing here text = .ok (some body) ↔
      text = body.text ++ (closing ++ body.rest) ∧ Balanced body.text ∧
        NoneLive closing body.text (closing ++ body.rest) := by
  rw [bodyOf, ← scanBody_eq_some_iff here]
  split
  · rfl
  · next hoccurs =>
    -- A body would show an occurrence of the token.
    rw [occursIn_iff] at hoccurs
    constructor
    · intro h
      cases h
    · intro h
      exact absurd ⟨body.text, body.rest, (scanBody_eq_some h).symm⟩ hoccurs

/-- There is no body, and no fault, if the token occurs nowhere, or nowhere counts in a balanced
text. -/
theorem bodyOf_eq_none_iff (here : Offset) :
    bodyOf closing here text = .ok none ↔
      ¬ closing <:+: text ∨ Balanced text ∧ NoneLive closing text [] ∧ closing ≠ [] := by
  rw [bodyOf, ← scanBody_eq_none_iff here]
  split
  · next hoccurs =>
    rw [occursIn_iff] at hoccurs
    simp [hoccurs]
  · next hoccurs =>
    rw [occursIn_iff] at hoccurs
    simp [hoccurs]

/-- A fault is told only of a text in which the token occurs. -/
theorem bodyOf_eq_error_iff {e : Error} :
    bodyOf closing here text = .error e ↔
      closing <:+: text ∧ scanBody closing .closed here text = .error e := by
  -- The early look for the token answers before there is a scan.
  rw [bodyOf]
  split
  · next hoccurs =>
    rw [occursIn_iff] at hoccurs
    simp [hoccurs]
  · next hoccurs =>
    rw [occursIn_iff] at hoccurs
    simp [hoccurs]

end Interpolation
