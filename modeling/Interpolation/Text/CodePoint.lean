/-!
# Ranges of code points

A property of characters is given by the ranges of the code points that have it.
-/

namespace Interpolation

/-- Whether the code point of a character lies in one of the ranges, ends included. -/
def inRanges (ranges : List (Nat × Nat)) (c : Char) : Bool :=
  ranges.any fun range => range.1 ≤ c.toNat && c.toNat ≤ range.2

/-- A code point in front of all ranges lies in none of them. -/
theorem inRanges_eq_false_of_lt {ranges : List (Nat × Nat)} {n : Nat} {c : Char} (hc : c.toNat < n)
    (h : ∀ range ∈ ranges, n ≤ range.1) : inRanges ranges c = false := by
  rw [inRanges, List.any_eq_false]
  intro range hrange
  have := h range hrange
  simp only [Bool.and_eq_true, decide_eq_true_eq, not_and]
  omega

end Interpolation
