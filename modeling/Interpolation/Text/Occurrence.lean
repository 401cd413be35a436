/-!
# Occurrences of a text inside another

## Main definitions

* `occursIn`: whether a text stands somewhere inside another.
* `splitFirst`: the two sides of the first occurrence.
-/

namespace Interpolation

/-- Whether `needle` stands somewhere in a text. -/
def occursIn (needle : List Char) : List Char → Bool
  | [] => needle.isEmpty
  | c :: cs => needle.isPrefixOf (c :: cs) || occursIn needle cs

/-- What stands in front of the first occurrence of `needle` in a text, and what stands behind
it. -/
def splitFirst (needle : List Char) : List Char → Option (List Char × List Char)
  | [] => if needle.isEmpty then some ([], []) else none
  | c :: cs =>
    if needle.isPrefixOf (c :: cs) then some ([], (c :: cs).drop needle.length)
    else (splitFirst needle cs).map fun sides => (c :: sides.1, sides.2)

/-- The two sides of an occurrence are those of the text. -/
theorem splitFirst_eq_some {needle text before behind : List Char}
    (h : splitFirst needle text = some (before, behind)) :
    text = before ++ needle ++ behind := by
  induction text generalizing before with
  | nil =>
    cases needle <;> simp_all [splitFirst]
  | cons c cs ih =>
    rw [splitFirst] at h
    split at h
    · next hp =>
      obtain ⟨rest, hrest⟩ := List.isPrefixOf_iff_prefix.mp hp
      simp only [Option.some.injEq, Prod.mk.injEq] at h
      obtain ⟨rfl, rfl⟩ := h
      simp [← hrest]
    · obtain ⟨sides, hsides, heq⟩ := Option.map_eq_some_iff.mp h
      simp only [Prod.mk.injEq] at heq
      obtain ⟨rfl, rfl⟩ := heq
      simpa using ih hsides

end Interpolation
