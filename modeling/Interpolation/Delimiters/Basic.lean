import Interpolation.Error

/-!
# Delimiters

The two tokens that mark embedded expressions, and whether input is a template at all.

## Main definitions

* `Delimiters`: the configuration a text is read with.
* `Delimiters.fault?`, `Delimiters.check`, `Delimiters.guarded`: neither token may be empty.
-/

namespace Interpolation

/-- The configuration a text is read with. -/
structure Delimiters where
  /-- The token in front of an embedded expression. -/
  opening : String
  /-- The token behind an embedded expression. -/
  closing : String
  /-- Whether input is a template; if not, it is one expression without delimiters. -/
  template : Bool
deriving DecidableEq

namespace Delimiters

/-- A template with the given tokens. -/
def tokens (opening closing : String) : Delimiters := ⟨opening, closing, true⟩

/-- A template with expressions between a hash with a brace and a brace, which is the default. -/
def hash : Delimiters := tokens "#\x7b" "\x7d"

/-- A template with expressions between a dollar with a brace and a brace. -/
def dollar : Delimiters := tokens "$\x7b" "\x7d"

/-- Input that is one expression without delimiters. -/
def raw : Delimiters := { hash with template := false }

instance : Inhabited Delimiters := ⟨hash⟩

/-- The first of the two tokens that is empty. -/
def fault? (d : Delimiters) : Option DelimiterToken :=
  if d.opening = "" then some .opening else if d.closing = "" then some .closing else none

/-- Fails with the first token that is empty. -/
def check (d : Delimiters) : Except Error Unit :=
  match d.fault? with
  | some token => .error (.unspanned (.invalidDelimiter token))
  | none => .ok ()

/-- There is no fault exactly if neither token is empty. -/
theorem fault?_eq_none_iff {d : Delimiters} :
    d.fault? = none ↔ d.opening ≠ "" ∧ d.closing ≠ "" := by
  unfold fault?
  split
  · simp [*]
  · split <;> simp [*]

/-- Fails with the token that is empty, and goes on if neither is. -/
def guarded {α : Type} (d : Delimiters) (goOn : d.opening ≠ "" → Except Error α) : Except Error α :=
  match h : d.fault? with
  | some token => .error (.unspanned (.invalidDelimiter token))
  | none => goOn (fault?_eq_none_iff.mp h).1

/-- With two delimiters there is nothing to fail with. -/
theorem guarded_eq {α : Type} {d : Delimiters} {goOn : d.opening ≠ "" → Except Error α}
    (hopening : d.opening ≠ "") (hclosing : d.closing ≠ "") :
    d.guarded goOn = goOn hopening := by
  have hfault : d.fault? = none := fault?_eq_none_iff.mpr ⟨hopening, hclosing⟩
  unfold guarded
  split
  · next token htoken =>
    rw [hfault] at htoken
    cases htoken
  · rfl

/-- The check succeeds exactly if neither token is empty. -/
theorem check_eq_ok_iff {d : Delimiters} : d.check = .ok () ↔ d.opening ≠ "" ∧ d.closing ≠ "" := by
  rw [← fault?_eq_none_iff, check]
  split <;> simp [*]

/-- What the check fails with, all that is guarded by it fails with. -/
theorem guarded_of_check {α : Type} {d : Delimiters} {e : Error} (h : d.check = .error e)
    (goOn : d.opening ≠ "" → Except Error α) : d.guarded goOn = .error e := by
  unfold check at h
  unfold guarded
  split at h
  · next token htoken =>
    cases h
    split
    · -- Both look for the same fault.
      next token' htoken' =>
      rw [htoken] at htoken'
      cases htoken'
      rfl
    · next hnone =>
      rw [htoken] at hnone
      cases hnone
  · cases h

/-- Nothing that is guarded by the check succeeds without two delimiters. -/
theorem nonempty_of_guarded {α : Type} {d : Delimiters} {goOn : d.opening ≠ "" → Except Error α}
    {a : α} (h : d.guarded goOn = .ok a) : d.opening ≠ "" ∧ d.closing ≠ "" := by
  cases hcheck : d.check with
  | ok _ => exact check_eq_ok_iff.mp hcheck
  | error e =>
    rw [guarded_of_check hcheck] at h
    cases h

end Delimiters

end Interpolation
