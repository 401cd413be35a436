import Interpolation.Text.CodePoint

/-!
# Blank characters

The characters with the Unicode property `White_Space`, and cutting them off the ends of a text.
The whitespace of the expression language is a smaller set and is defined with its grammar.

## Main definitions

* `isBlank`, `trim`: blank characters, and a text without those at its ends.
* `AllBlank`, `IsTrimmed`: texts with nothing else, and texts with something else at both ends.

## Main statements

* `trim_padded`, `takeWhile_padded`: a trimmed text comes back from between blanks.
* `exists_padding`: what trimming leaves over is trimmed, and only blanks were around it.
-/

namespace Interpolation

/-- The ranges of the code points with the property `White_Space`. -/
def blankRanges : List (Nat × Nat) :=
  [(0x09, 0x0D), (0x20, 0x20), (0x85, 0x85), (0xA0, 0xA0), (0x1680, 0x1680), (0x2000, 0x200A),
    (0x2028, 0x2029), (0x202F, 0x202F), (0x205F, 0x205F), (0x3000, 0x3000)]

/-- Whether a character is blank. -/
def isBlank (c : Char) : Bool := inRanges blankRanges c

/-- A text without the blanks at its start. -/
def trimStart (text : List Char) : List Char := text.dropWhile isBlank

/-- A text without the blanks at its end. -/
def trimEnd (text : List Char) : List Char := (text.reverse.dropWhile isBlank).reverse

/-- A text without the blanks at its ends. -/
def trim (text : List Char) : List Char := trimEnd (trimStart text)

/-- There is nothing but blanks. -/
def AllBlank (text : List Char) : Prop := ∀ c ∈ text, isBlank c = true

/-- Neither the first nor the last character is blank, and there is one. -/
def IsTrimmed (text : List Char) : Prop :=
  (∃ c cs, text = c :: cs ∧ isBlank c = false) ∧ ∃ cs c, text = cs ++ [c] ∧ isBlank c = false

variable {lead raw trail text : List Char}

theorem IsTrimmed.ne_nil (h : IsTrimmed raw) : raw ≠ [] := by
  obtain ⟨⟨c, cs, rfl, -⟩, -⟩ := h
  exact List.cons_ne_nil c cs

theorem AllBlank.reverse (h : AllBlank text) : AllBlank text.reverse := by
  intro c hc
  exact h c (List.mem_reverse.mp hc)

theorem exists_cons_of_dropWhile (h : text.dropWhile isBlank ≠ []) :
    ∃ c cs, text.dropWhile isBlank = c :: cs ∧ isBlank c = false := by
  obtain ⟨c, cs, hcons⟩ := List.exists_cons_of_ne_nil h
  have hhead := List.head?_dropWhile_not isBlank text
  rw [hcons] at hhead
  exact ⟨c, cs, hcons, hhead⟩

theorem takeWhile_padded (hlead : AllBlank lead) (hraw : IsTrimmed raw) :
    (lead ++ raw ++ trail).takeWhile isBlank = lead := by
  obtain ⟨⟨c, cs, rfl, hc⟩, -⟩ := hraw
  rw [List.append_assoc, List.takeWhile_append_of_pos hlead]
  simp [hc]

/-- A trimmed text comes back from between blanks. -/
theorem trim_padded (hlead : AllBlank lead) (hraw : IsTrimmed raw) (htrail : AllBlank trail) :
    trim (lead ++ raw ++ trail) = raw := by
  have hstart : trimStart (lead ++ raw ++ trail) = raw ++ trail := by
    obtain ⟨⟨c, cs, rfl, hc⟩, -⟩ := hraw
    rw [trimStart, List.append_assoc, List.dropWhile_append_of_pos hlead]
    simp [hc]
  obtain ⟨-, cs, c, rfl, hc⟩ := hraw
  rw [trim, hstart, trimEnd, List.reverse_append, List.dropWhile_append_of_pos htrail.reverse]
  simp [hc]

/-- What trimming leaves over is trimmed, and only blanks were around it. -/
theorem exists_padding (h : trim text ≠ []) :
    IsTrimmed (trim text) ∧
      ∃ trail, AllBlank trail ∧ text = text.takeWhile isBlank ++ trim text ++ trail := by
  have hend : (trimStart text).reverse.dropWhile isBlank ≠ [] := by
    intro hnil
    rw [trim, trimEnd, hnil] at h
    exact h rfl
  obtain ⟨last, front, hlast, hlastBlank⟩ := exists_cons_of_dropWhile hend
  have htrim : trim text = front.reverse ++ [last] := by
    rw [trim, trimEnd, hlast, List.reverse_cons]
  -- The blanks at the end are those that start the reversed text.
  have hsplit : trimStart text =
      trim text ++ ((trimStart text).reverse.takeWhile isBlank).reverse := by
    rw [trim, trimEnd, ← List.reverse_append, List.takeWhile_append_dropWhile,
      List.reverse_reverse]
  -- If only blanks stood in the text, trimming would leave nothing.
  have hstart : text.dropWhile isBlank ≠ [] := by
    intro hnil
    rw [trimStart, hnil] at hsplit
    exact h (List.append_eq_nil_iff.mp hsplit.symm).1
  obtain ⟨first, rest, hfirst, hfirstBlank⟩ := exists_cons_of_dropWhile hstart
  refine ⟨⟨?_, front.reverse, last, htrim, hlastBlank⟩,
    ((trimStart text).reverse.takeWhile isBlank).reverse, ?_, ?_⟩
  · obtain ⟨c, cs, hcons⟩ := List.exists_cons_of_ne_nil h
    rw [trimStart, hfirst, hcons, List.cons_append, List.cons.injEq] at hsplit
    exact ⟨c, cs, hcons, hsplit.1 ▸ hfirstBlank⟩
  · exact AllBlank.reverse fun c hc => List.all_eq_true.mp List.all_takeWhile c hc
  · rw [List.append_assoc, ← hsplit, trimStart, List.takeWhile_append_dropWhile]

end Interpolation
