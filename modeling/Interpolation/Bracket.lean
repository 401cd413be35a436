/-!
# Brackets

The three pairs of brackets and the two quotes that decide where an embedded expression may stop.
All of them are single bytes.

## Main definitions

* `CharRole`: what a character does to the nesting of brackets.
* `closerOf`, `openerOf`: the partner of a bracket.
* `Partners`: the three pairs, without a computation.
-/

namespace Interpolation

/-- What a character does to the nesting of brackets. -/
inductive CharRole where
  /-- It opens a bracket. -/
  | opener
  /-- It closes a bracket. -/
  | closer
  /-- It starts a string literal, and ends the one it started. -/
  | quote
  /-- It does nothing. -/
  | plain
deriving DecidableEq

/-- What a character does to the nesting of brackets, outside string literals. -/
def CharRole.of (c : Char) : CharRole :=
  if c = '(' ∨ c = '[' ∨ c = '{' then .opener
  else if c = ')' ∨ c = ']' ∨ c = '}' then .closer
  else if c = '\'' ∨ c = '"' then .quote
  else .plain

/-- The bracket that closes an opening bracket; what is no other bracket counts as a parenthesis. -/
def closerOf (opener : Char) : Char :=
  if opener = '{' then '}' else if opener = '[' then ']' else ')'

/-- The bracket that a closing bracket closes; what is no other bracket counts as a parenthesis. -/
def openerOf (closer : Char) : Char :=
  if closer = '}' then '{' else if closer = ']' then '[' else '('

/-- An opening bracket and the bracket that closes it. -/
inductive Partners : Char → Char → Prop where
  /-- Parentheses. -/
  | parentheses : Partners '(' ')'
  /-- Square brackets. -/
  | squareBrackets : Partners '[' ']'
  /-- Braces. -/
  | braces : Partners '{' '}'

namespace CharRole

theorem of_eq_opener_iff {c : Char} : of c = .opener ↔ c = '(' ∨ c = '[' ∨ c = '{' := by
  unfold of
  grind

theorem of_eq_closer_iff {c : Char} : of c = .closer ↔ c = ')' ∨ c = ']' ∨ c = '}' := by
  unfold of
  grind

/-- All that is not plain is one of eight characters. -/
theorem of_ne_plain_iff {c : Char} :
    of c ≠ .plain ↔
      c = '(' ∨ c = '[' ∨ c = '{' ∨ c = ')' ∨ c = ']' ∨ c = '}' ∨ c = '\'' ∨ c = '"' := by
  unfold of
  grind

theorem of_closerOf {c : Char} (h : of c = .opener) : of (closerOf c) = .closer := by
  rcases of_eq_opener_iff.mp h with rfl | rfl | rfl <;> decide

theorem utf8Size_eq_one {c : Char} (h : of c ≠ .plain) : c.utf8Size = 1 := by
  rcases of_ne_plain_iff.mp h with rfl | rfl | rfl | rfl | rfl | rfl | rfl | rfl <;> decide

end CharRole

theorem openerOf_closerOf {c : Char} (h : CharRole.of c = .opener) : openerOf (closerOf c) = c := by
  rcases CharRole.of_eq_opener_iff.mp h with rfl | rfl | rfl <;> decide

/-- What is computed as the partner of an opening bracket is the other one of its pair. -/
theorem partners_iff {a c : Char} : Partners a c ↔ CharRole.of a = .opener ∧ c = closerOf a := by
  constructor
  · intro h
    cases h <;> decide
  · rintro ⟨ha, rfl⟩
    rcases CharRole.of_eq_opener_iff.mp ha with rfl | rfl | rfl
    · exact .parentheses
    · exact .squareBrackets
    · exact .braces

/-- For an opening bracket, not to be its partner is not to be what is computed as the partner. -/
theorem not_partners_iff {a c : Char} (ha : CharRole.of a = .opener) :
    ¬ Partners a c ↔ c ≠ closerOf a := by
  rw [partners_iff]
  simp [ha]

namespace Partners

variable {a c : Char}

theorem opener (h : Partners a c) : CharRole.of a = .opener := (partners_iff.mp h).1

/-- The second of a pair closes. -/
theorem closer (h : Partners a c) : CharRole.of c = .closer := by
  obtain ⟨ha, rfl⟩ := partners_iff.mp h
  exact CharRole.of_closerOf ha

theorem closerOf_eq (h : Partners a c) : closerOf a = c := (partners_iff.mp h).2.symm

/-- The bracket that a closing bracket is said to close is the other one of its pair. -/
theorem openerOf_eq (h : Partners a c) : openerOf c = a := by
  obtain ⟨ha, rfl⟩ := partners_iff.mp h
  exact openerOf_closerOf ha

end Partners

/-- Each closing bracket has a partner. -/
theorem exists_partners {c : Char} (h : CharRole.of c = .closer) : ∃ a, Partners a c := by
  rcases CharRole.of_eq_closer_iff.mp h with rfl | rfl | rfl
  · exact ⟨_, .parentheses⟩
  · exact ⟨_, .squareBrackets⟩
  · exact ⟨_, .braces⟩

end Interpolation
