import Interpolation.Segment.Closing
import Mathlib.Data.List.Induction

/-!
# Balanced texts

What an embedded expression may look like is a context-free matter: brackets pair up, and string
literals are closed and may hold anything.  The scan for the closing token reads the text once, with
a stack.  This module ties the two together: the state of the scan behind a text is one way of
taking the text apart, into balanced runs with an open bracket between any two of them.

## Main definitions

- `Balanced`: the texts whose brackets pair up and whose literals are closed.
- `OpenPrefix`: balanced runs with opening brackets between them.
- `Nesting.run`: what is open behind a run of characters.
- `Reached`: the texts behind which a given nesting is open.

## Main results

- `Reached.step`: reading one more character keeps the decomposition.
- `run_closed_eq_some_iff`: a run ends in a nesting exactly where the text comes apart that way.
- `run_closed_eq_closed_iff`: nothing is open exactly behind the balanced texts.
-/

namespace Interpolation

/-! ## Layer A: the language -/

/-- Brackets pair up, and string literals are closed; a literal may hold anything but its quote. -/
inductive Balanced : List Char → Prop where
  /-- Nothing is balanced. -/
  | nil : Balanced []
  /-- A character that is neither bracket nor quote changes nothing. -/
  | plain {c : Char} {rest : List Char} :
      CharRole.of c = .plain → Balanced rest → Balanced (c :: rest)
  /-- A pair of partners encloses a balanced text. -/
  | bracket {o : Char} {inner rest : List Char} :
      CharRole.of o = .opener → Balanced inner → Balanced rest →
      Balanced (o :: inner ++ closerOf o :: rest)
  /-- A quote goes with the next one of its kind. -/
  | literal {q : Char} {inside rest : List Char} :
      CharRole.of q = .quote → q ∉ inside → Balanced rest → Balanced (q :: inside ++ q :: rest)

/-- Balanced texts with an opening bracket between any two of them. -/
inductive OpenPrefix : List Char → Prop where
  /-- No bracket is open. -/
  | balanced {w : List Char} : Balanced w → OpenPrefix w
  /-- One more bracket is open, with a balanced text behind it. -/
  | opener {u w : List Char} {o : Char} :
      OpenPrefix u → CharRole.of o = .opener → Balanced w → OpenPrefix (u ++ o :: w)

/-- An open prefix with its open brackets, the innermost first; the text starts at `here`. -/
inductive Opened (here : Offset) : List Char → List Opener → Prop where
  /-- No bracket is open. -/
  | balanced {w : List Char} : Balanced w → Opened here w []
  /-- One more bracket is open, with its place in the text. -/
  | opener {u w : List Char} {o : Char} {outer : List Opener} :
      Opened here u outer → CharRole.of o = .opener → Balanced w →
      Opened here (u ++ o :: w) (⟨o, here + extent u⟩ :: outer)

theorem Balanced.append {u v : List Char} (hu : Balanced u) (hv : Balanced v) :
    Balanced (u ++ v) := by
  induction hu with
  | nil => exact hv
  | plain hc _ ih => exact .plain hc ih
  | bracket ho hinner _ _ ih =>
    rw [List.append_assoc, List.cons_append]
    exact .bracket ho hinner ih
  | literal hq hinside _ ih =>
    rw [List.append_assoc, List.cons_append]
    exact .literal hq hinside ih

/-- A run of plain characters is balanced. -/
theorem balanced_of_plain {u : List Char} (h : ∀ c ∈ u, CharRole.of c = .plain) : Balanced u := by
  induction u with
  | nil => exact .nil
  | cons c cs ih =>
    obtain ⟨hc, hcs⟩ := List.forall_mem_cons.mp h
    exact .plain hc (ih hcs)

theorem OpenPrefix.exists_opened {u : List Char} (h : OpenPrefix u) (here : Offset) :
    ∃ brackets, Opened here u brackets := by
  induction h with
  | balanced hw => exact ⟨[], .balanced hw⟩
  | opener _ ho hw ih =>
    obtain ⟨outer, houter⟩ := ih
    exact ⟨_, .opener houter ho hw⟩

namespace Opened

variable {here : Offset} {u w : List Char} {brackets : List Opener}

theorem openPrefix (h : Opened here u brackets) : OpenPrefix u := by
  induction h with
  | balanced hw => exact .balanced hw
  | opener _ ho hw ih => exact .opener ih ho hw

/-- A balanced text goes with the last run of an open prefix. -/
theorem append (h : Opened here u brackets) (hw : Balanced w) : Opened here (u ++ w) brackets := by
  cases h with
  | balanced hu => exact .balanced (hu.append hw)
  | opener houter ho hlast =>
    rw [List.append_assoc, List.cons_append]
    exact .opener houter ho (hlast.append hw)

/-- Without an open bracket the whole text is balanced. -/
theorem nil_iff : Opened here u [] ↔ Balanced u := by
  constructor
  · intro h
    cases h with
    | balanced hw => exact hw
  · exact .balanced

/-- The innermost open bracket, if there is one, is followed by a balanced text. -/
theorem cons_iff {opener : Opener} {outer : List Opener} :
    Opened here u (opener :: outer) ↔
      ∃ v w, u = v ++ opener.symbol :: w ∧ opener.offset = here + extent v ∧
        Opened here v outer ∧ CharRole.of opener.symbol = .opener ∧ Balanced w := by
  constructor
  · intro h
    cases h with
    | opener houter ho hw => exact ⟨_, _, rfl, rfl, houter, ho, hw⟩
  · rintro ⟨v, w, rfl, hoffset, houter, ho, hw⟩
    -- The bracket is its symbol and its place.
    obtain ⟨o, offset⟩ := opener
    dsimp only at hoffset
    subst hoffset
    exact .opener houter ho hw

end Opened

/-! ## Layer B: runs of the scan -/

namespace Nesting

/-- What is open behind a run of characters that starts at `here`. -/
def run (nesting : Nesting) (here : Offset) : List Char → Option Nesting
  | [] => some nesting
  | c :: cs => (nesting.step here c).bind fun next => next.run (here + .ofChar c) cs

variable {here : Offset} {brackets : List Opener} {c : Char}

@[simp] theorem run_nil (nesting : Nesting) (here : Offset) : nesting.run here [] = some nesting :=
  rfl

theorem run_cons (nesting : Nesting) (here : Offset) (c : Char) (cs : List Char) :
    nesting.run here (c :: cs) =
      (nesting.step here c).bind fun next => next.run (here + .ofChar c) cs :=
  rfl

/-- A run goes on where its first part ends. -/
theorem run_append (nesting : Nesting) (here : Offset) (u v : List Char) :
    nesting.run here (u ++ v) =
      (nesting.run here u).bind fun next => next.run (here + extent u) v := by
  induction u generalizing nesting here with
  | nil => simp
  | cons c cs ih =>
    rw [List.cons_append, run_cons, run_cons, extent_cons]
    cases nesting.step here c with
    | none => rfl
    | some next =>
      simp only [Option.bind_some]
      rw [ih, Offset.add_assoc]

theorem step_plain (h : CharRole.of c = .plain) :
    (⟨none, brackets⟩ : Nesting).step here c = some ⟨none, brackets⟩ := by
  simp [step, h]

theorem step_quote (h : CharRole.of c = .quote) :
    (⟨none, brackets⟩ : Nesting).step here c = some ⟨some ⟨c, here⟩, brackets⟩ := by
  simp [step, h]

theorem step_opener (h : CharRole.of c = .opener) :
    (⟨none, brackets⟩ : Nesting).step here c = some ⟨none, ⟨c, here⟩ :: brackets⟩ := by
  simp [step, h]

theorem step_partner (opener : Opener) (h : CharRole.of opener.symbol = .opener) :
    (⟨none, opener :: brackets⟩ : Nesting).step here (closerOf opener.symbol) =
      some ⟨none, brackets⟩ := by
  simp [step, CharRole.of_closerOf h, Opener.closedBy]

theorem step_own_quote (quote : Opener) (brackets : List Opener) (here : Offset) :
    (⟨some quote, brackets⟩ : Nesting).step here quote.symbol = some ⟨none, brackets⟩ := by
  simp [step]

theorem step_inside {quote : Opener} (h : c ≠ quote.symbol) :
    (⟨some quote, brackets⟩ : Nesting).step here c = some ⟨some quote, brackets⟩ := by
  simp [step, h]

theorem open_ne_closed (opener : Opener) (outer : List Opener) :
    (⟨none, opener :: outer⟩ : Nesting) ≠ .closed := by
  simp [closed]

theorem inside_ne_closed (quote : Opener) (brackets : List Opener) :
    (⟨some quote, brackets⟩ : Nesting) ≠ .closed := by
  simp [closed]

/-- Outside literals a character has no place exactly if it is a closing bracket that is not the
partner of the innermost open bracket. -/
theorem step_eq_none_iff {nesting : Nesting} :
    nesting.step here c = none ↔
      nesting.quote? = none ∧ CharRole.of c = .closer ∧
        ∀ opener outer, nesting.brackets = opener :: outer → opener.closedBy c = false := by
  unfold step
  cases nesting.quote? with
  -- Inside a literal every character has a place.
  | some quote => simp
  | none =>
    cases CharRole.of c with
    -- A closing bracket looks at the innermost open one; the other kinds always have a place.
    | closer => cases nesting.brackets <;> simp
    | _ => simp

/-- A literal goes on up to its own quote. -/
theorem run_inside (quote : Opener) {inside : List Char} (h : quote.symbol ∉ inside)
    (here : Offset) :
    (⟨some quote, brackets⟩ : Nesting).run here inside = some ⟨some quote, brackets⟩ := by
  induction inside generalizing here with
  | nil => rfl
  | cons c cs ih =>
    rw [List.mem_cons, not_or] at h
    rw [run_cons, step_inside (Ne.symm h.1), Option.bind_some, ih h.2]

end Nesting

/-- A balanced text leaves open what was open in front of it. -/
theorem Balanced.run {w : List Char} (h : Balanced w) (here : Offset) (brackets : List Opener) :
    (⟨none, brackets⟩ : Nesting).run here w = some ⟨none, brackets⟩ := by
  induction h generalizing here brackets with
  | nil => rfl
  | plain hc _ ih => rw [Nesting.run_cons, Nesting.step_plain hc, Option.bind_some, ih]
  -- The opener goes onto the stack and its partner takes it off again.
  | @bracket o inner rest ho _ _ ihinner ihrest =>
    rw [Nesting.run_append, Nesting.run_cons, Nesting.step_opener ho, Option.bind_some, ihinner,
      Option.bind_some, Nesting.run_cons]
    rw [Nesting.step_partner ⟨o, here⟩ ho, Option.bind_some, ihrest]
  -- What is between the quotes is passed over.
  | @literal q inside rest hq hinside _ ih =>
    rw [Nesting.run_append, Nesting.run_cons, Nesting.step_quote hq, Option.bind_some,
      Nesting.run_inside ⟨q, here⟩ hinside, Option.bind_some, Nesting.run_cons]
    rw [Nesting.step_own_quote ⟨q, here⟩, Option.bind_some, ih]

/-! ## Layer C: the decomposition behind a text -/

/-- The nesting that is open behind a text which starts at `here`. -/
inductive Reached (here : Offset) : List Char → Nesting → Prop where
  /-- Outside literals the text is an open prefix. -/
  | outside {u : List Char} {brackets : List Opener} :
      Opened here u brackets → Reached here u ⟨none, brackets⟩
  /-- Inside a literal it is an open prefix up to the quote. -/
  | inside {u inside : List Char} {brackets : List Opener} {q : Char} :
      Opened here u brackets → CharRole.of q = .quote → q ∉ inside →
      Reached here (u ++ q :: inside) ⟨some ⟨q, here + extent u⟩, brackets⟩

/-- One more character keeps the decomposition. -/
theorem Reached.step {here : Offset} {u : List Char} {c : Char} {nesting next : Nesting}
    (h : Reached here u nesting) (hstep : nesting.step (here + extent u) c = some next) :
    Reached here (u ++ [c]) next := by
  cases h with
  | @outside _ brackets hopened =>
    cases hrole : CharRole.of c with
    | plain =>
      rw [Nesting.step_plain hrole] at hstep
      cases hstep
      exact .outside (hopened.append (.plain hrole .nil))
    | quote =>
      rw [Nesting.step_quote hrole] at hstep
      cases hstep
      exact .inside hopened hrole List.not_mem_nil
    | opener =>
      rw [Nesting.step_opener hrole] at hstep
      cases hstep
      exact .outside (.opener hopened hrole .nil)
    | closer =>
      cases brackets with
      -- Nothing is open, so the step would have failed.
      | nil => simp [Nesting.step, hrole] at hstep
      | cons opener outer =>
        simp only [Nesting.step, hrole, Option.ite_none_right_eq_some, Option.some.injEq] at hstep
        obtain ⟨hclosed, rfl⟩ := hstep
        have hc : closerOf opener.symbol = c := eq_of_beq hclosed
        obtain ⟨v, w, rfl, -, houter, ho, hw⟩ := Opened.cons_iff.mp hopened
        -- The innermost bracket, its balanced text and its partner are one balanced text more.
        have hpair : Balanced (opener.symbol :: w ++ closerOf opener.symbol :: []) :=
          .bracket ho hw .nil
        rw [← hc, List.append_assoc]
        exact .outside (houter.append hpair)
  | @inside v inner brackets q hopened hq hinner =>
    by_cases hcq : c = q
    · subst hcq
      have hown := Nesting.step_own_quote ⟨c, here + extent v⟩ brackets
        (here + extent (v ++ c :: inner))
      rw [hown] at hstep
      cases hstep
      -- The literal ends, and is one balanced text more.
      have hliteral : Balanced (c :: inner ++ c :: []) := .literal hq hinner .nil
      rw [List.append_assoc]
      exact .outside (hopened.append hliteral)
    · rw [Nesting.step_inside hcq] at hstep
      cases hstep
      rw [List.append_assoc]
      -- The literal goes on.
      refine .inside hopened hq ?_
      simp [hinner, Ne.symm hcq]

theorem Opened.run {here : Offset} {u : List Char} {brackets : List Opener}
    (h : Opened here u brackets) : Nesting.closed.run here u = some ⟨none, brackets⟩ := by
  induction h with
  | balanced hw => exact hw.run here []
  | opener _ ho hw ih =>
    rw [Nesting.run_append, ih, Option.bind_some, Nesting.run_cons, Nesting.step_opener ho,
      Option.bind_some, hw.run]

/-- From a closed start, a run ends in a nesting exactly where the text comes apart that way. -/
theorem run_closed_eq_some_iff {here : Offset} {u : List Char} {nesting : Nesting} :
    Nesting.closed.run here u = some nesting ↔ Reached here u nesting := by
  constructor
  · intro h
    -- From the end, since the decomposition grows at the end.
    induction u using List.reverseRecOn generalizing nesting with
    | nil =>
      cases h
      exact .outside (.balanced .nil)
    | append_singleton u c ih =>
      rw [Nesting.run_append] at h
      obtain ⟨before, hbefore, hlast⟩ := Option.bind_eq_some_iff.mp h
      rw [Nesting.run_cons] at hlast
      obtain ⟨after, hstep, hafter⟩ := Option.bind_eq_some_iff.mp hlast
      cases hafter
      exact (ih hbefore).step hstep
  · intro h
    cases h with
    | outside hopened => exact hopened.run
    | inside hopened hq hinside =>
      rw [Nesting.run_append, hopened.run, Option.bind_some, Nesting.run_cons,
        Nesting.step_quote hq, Option.bind_some, Nesting.run_inside _ hinside]

/-- Nothing is open exactly behind the balanced texts. -/
theorem run_closed_eq_closed_iff {here : Offset} {u : List Char} :
    Nesting.closed.run here u = some .closed ↔ Balanced u := by
  rw [run_closed_eq_some_iff]
  constructor
  · intro h
    cases h with
    | outside hopened => exact Opened.nil_iff.mp hopened
  · intro h
    exact .outside (.balanced h)

/-- Behind anything else the text is not balanced. -/
theorem Reached.not_balanced {here : Offset} {u : List Char} {nesting : Nesting}
    (h : Reached here u nesting) (hopen : nesting ≠ .closed) : ¬ Balanced u := by
  intro hbalanced
  -- A run ends in one nesting only.
  have hrun : Nesting.closed.run here u = some nesting := run_closed_eq_some_iff.mpr h
  rw [run_closed_eq_closed_iff.mpr hbalanced] at hrun
  exact hopen (Option.some.inj hrun).symm

/-- Behind a balanced text the rest of a balanced text is balanced. -/
theorem Balanced.of_append_left {u v : List Char} (hu : Balanced u) (h : Balanced (u ++ v)) :
    Balanced v := by
  -- The run over both starts again behind the first one.
  have hrun : Nesting.closed.run .zero (u ++ v) = some .closed := run_closed_eq_closed_iff.mpr h
  rw [Nesting.run_append, run_closed_eq_closed_iff.mpr hu, Option.bind_some] at hrun
  exact run_closed_eq_closed_iff.mp hrun

/-- A plain character closes neither a bracket nor a literal. -/
theorem Reached.balanced_of_plain {here place : Offset} {u : List Char} {c : Char}
    {nesting : Nesting} (h : Reached here u nesting) (hc : CharRole.of c = .plain)
    (hstep : nesting.step place c = some .closed) : Balanced u := by
  cases h with
  | outside hopened =>
    rw [Nesting.step_plain hc] at hstep
    cases hstep
    exact Opened.nil_iff.mp hopened
  | @inside _ _ _ q _ hq _ =>
    -- The quote that is open is no plain character, so the literal goes on.
    have hne : c ≠ q := by
      rintro rfl
      rw [hq] at hc
      cases hc
    rw [Nesting.step_inside hne] at hstep
    cases hstep

/-- Without the plain characters at its end a balanced text is balanced. -/
theorem Balanced.of_append_plain {u v : List Char} (hv : ∀ c ∈ v, CharRole.of c = .plain)
    (h : Balanced (u ++ v)) : Balanced u := by
  induction v using List.reverseRecOn with
  | nil => rwa [List.append_nil] at h
  | append_singleton v c ih =>
    obtain ⟨hv, hc⟩ := List.forall_mem_append.mp hv
    have hrun : Nesting.closed.run .zero (u ++ (v ++ [c])) = some .closed :=
      run_closed_eq_closed_iff.mpr h
    rw [← List.append_assoc, Nesting.run_append] at hrun
    obtain ⟨before, hbefore, hlast⟩ := Option.bind_eq_some_iff.mp hrun
    obtain ⟨after, hstep, hafter⟩ := Option.bind_eq_some_iff.mp hlast
    cases hafter
    exact ih hv ((run_closed_eq_some_iff.mp hbefore).balanced_of_plain (hc c List.mem_cons_self)
      hstep)

end Interpolation
