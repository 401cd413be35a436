import Interpolation.Text.Occurrence
import Interpolation.Text.Offset

/-!
# Slices of a text

Offsets are counted in bytes, and a text is a list of characters.  A slice is the stretch of the
text between two byte offsets; it exists only where both offsets lie on character boundaries.

## Main definitions

- `IsSlice`: a stretch of a text between two byte offsets.
- `StandsAt`: a run of characters that starts at a byte offset.
- `Avoids`: no occurrence of a token starts inside a text.

## Main results

- `cutAt_eq_some_iff`, `charOffset_eq`: halves of a text and characters in front of an offset.
- `splitFirst_eq_some_iff`, `splitFirst_eq_none_iff`: the search for a token finds its first
  occurrence and misses none.
-/

namespace Interpolation

/-! ## Bytes along a text -/

theorem bytes_extent_lt_append {w : List Char} (hw : w ≠ []) (v : List Char) :
    (extent v).bytes < (extent (v ++ w)).bytes := by
  obtain ⟨c, cs, rfl⟩ := List.exists_cons_of_ne_nil hw
  have hc : 0 < c.utf8Size := c.utf8Size_pos
  rw [extent_append, extent_cons]
  simp only [Offset.bytes_add, Offset.ofChar]
  omega

theorem bytes_extent_le_append (v w : List Char) :
    (extent v).bytes ≤ (extent (v ++ w)).bytes := by
  rw [extent_append, Offset.bytes_add]
  exact Nat.le_add_right _ _

/-- A text has no more characters than bytes. -/
theorem length_le_bytes_extent (u : List Char) : u.length ≤ (extent u).bytes := by
  induction u with
  | nil => exact Nat.le_refl 0
  | cons c cs ih =>
    have hc : 0 < c.utf8Size := c.utf8Size_pos
    simp only [List.length_cons, extent_cons, Offset.bytes_add, Offset.ofChar]
    omega

theorem bytes_extent (cs : List Char) : (extent cs).bytes = (String.ofList cs).utf8ByteSize := by
  induction cs with
  | nil => rfl
  | cons c cs ih =>
    rw [String.ofList_cons, String.utf8ByteSize_append, String.utf8ByteSize_singleton, ← ih]
    rfl

theorem bytes_extent_toList (text : String) : (extent text.toList).bytes = text.utf8ByteSize := by
  rw [bytes_extent, String.ofList_toList]

/-- Of two beginnings of a text, the one with fewer bytes is a beginning of the other. -/
theorem prefix_of_bytes_le {a b a' b' : List Char} (h : a ++ b = a' ++ b')
    (hle : (extent a).bytes ≤ (extent a').bytes) : a <+: a' := by
  have ha : a <+: a ++ b := List.prefix_append a b
  have ha' : a' <+: a ++ b := h ▸ List.prefix_append a' b'
  -- Both are beginnings of one text, so one of them is a beginning of the other.
  rcases List.prefix_or_prefix_of_prefix ha ha' with hp | ⟨w, rfl⟩
  · exact hp
  · by_cases hw : w = []
    · subst hw
      simp
    · -- A character more would be bytes more.
      have hlt : (extent a').bytes < (extent (a' ++ w)).bytes := bytes_extent_lt_append hw a'
      omega

/-- A byte offset is the end of at most one beginning of a text. -/
theorem eq_of_bytes_eq {a b a' b' : List Char} (h : a ++ b = a' ++ b')
    (hbytes : (extent a).bytes = (extent a').bytes) : a = a' ∧ b = b' := by
  have hp : a <+: a' := prefix_of_bytes_le h (Nat.le_of_eq hbytes)
  have hp' : a' <+: a := prefix_of_bytes_le h.symm (Nat.le_of_eq hbytes.symm)
  have heq : a = a' := hp.eq_of_length_le hp'.length_le
  subst heq
  exact ⟨rfl, List.append_cancel_left h⟩

/-! ## Halves of a text -/

/-- A text is cut at the end of any of its beginnings. -/
theorem cutAt_append (before behind : List Char) :
    cutAt (extent before).bytes (before ++ behind) = some (before, behind) := by
  induction before with
  | nil =>
    cases behind <;> simp [cutAt, Offset.zero]
  | cons c cs ih =>
    have hc : 0 < c.utf8Size := c.utf8Size_pos
    simp only [List.cons_append, extent_cons, Offset.bytes_add, Offset.ofChar, cutAt]
    -- The character takes up bytes, and it fits into the beginning.
    rw [if_neg (by omega), if_neg (by omega), Nat.add_sub_cancel_left, ih]
    rfl

/-- The halves of a text are the beginning with the given number of bytes and what is behind it. -/
theorem cutAt_eq_some_iff {n : Nat} {text before behind : List Char} :
    cutAt n text = some (before, behind) ↔
      text = before ++ behind ∧ (extent before).bytes = n := by
  constructor
  · intro h
    induction text generalizing n before with
    | nil =>
      simp only [cutAt, Option.ite_none_right_eq_some, Option.some.injEq, Prod.mk.injEq] at h
      obtain ⟨rfl, rfl, rfl⟩ := h
      exact ⟨rfl, rfl⟩
    | cons c cs ih =>
      rw [cutAt] at h
      split at h
      · -- The cut is here.
        next hn =>
        cases h
        exact ⟨rfl, hn.symm⟩
      · split at h
        · -- The cut would be inside this character.
          cases h
        · -- The cut is behind this character.
          next hfits =>
          obtain ⟨⟨inner, rest⟩, hinner, heq⟩ := Option.map_eq_some_iff.mp h
          cases heq
          obtain ⟨rfl, hbytes⟩ := ih hinner
          refine ⟨rfl, ?_⟩
          simp only [extent_cons, Offset.bytes_add, Offset.ofChar]
          omega
  · rintro ⟨rfl, rfl⟩
    exact cutAt_append before behind

theorem charOffset_eq {text : String} {before behind : List Char}
    (h : text.toList = before ++ behind) :
    charOffset text (extent before).bytes = before.length := by
  rw [charOffset, h, cutAt_append]

/-! ## Slices -/

/-- `slice` is the stretch of a text between the byte offsets `start` and `stop`. -/
def IsSlice (text : String) (start stop : Nat) (slice : List Char) : Prop :=
  ∃ before behind, text.toList = before ++ slice ++ behind ∧
    (extent before).bytes = start ∧ (extent (before ++ slice)).bytes = stop

/-- `token` stands in a text, from the byte offset `pos` on. -/
def StandsAt (text : String) (pos : Nat) (token : List Char) : Prop :=
  ∃ before behind, text.toList = before ++ token ++ behind ∧ (extent before).bytes = pos

/-- Behind a known beginning of a text, a slice is a beginning of the rest. -/
theorem isSlice_iff {text : String} {before behind slice : List Char} {stop : Nat}
    (h : text.toList = before ++ behind) :
    IsSlice text (extent before).bytes stop slice ↔
      slice <+: behind ∧ (extent (before ++ slice)).bytes = stop := by
  constructor
  · rintro ⟨before', behind', heq, hstart, hstop⟩
    rw [h, List.append_assoc] at heq
    obtain ⟨rfl, rfl⟩ := eq_of_bytes_eq heq hstart.symm
    exact ⟨List.prefix_append slice behind', hstop⟩
  · rintro ⟨⟨behind', rfl⟩, hstop⟩
    exact ⟨before, behind', by rw [h, List.append_assoc], rfl, hstop⟩

/-- Behind a known beginning of a text, a token stands where the rest begins with it. -/
theorem standsAt_iff {text : String} {before behind token : List Char}
    (h : text.toList = before ++ behind) :
    StandsAt text (extent before).bytes token ↔ token <+: behind := by
  constructor
  · rintro ⟨before', behind', heq, hpos⟩
    rw [h, List.append_assoc] at heq
    obtain ⟨rfl, rfl⟩ := eq_of_bytes_eq heq hpos.symm
    exact List.prefix_append token behind'
  · rintro ⟨behind', rfl⟩
    exact ⟨before, behind', by rw [h, List.append_assoc], rfl⟩

/-- The slice up to the end of a text is all that is left. -/
theorem isSlice_end_iff {text : String} {before behind slice : List Char}
    (h : text.toList = before ++ behind) :
    IsSlice text (extent before).bytes (extent text.toList).bytes slice ↔ slice = behind := by
  rw [isSlice_iff h]
  constructor
  · rintro ⟨⟨rest, rfl⟩, hstop⟩
    by_cases hrest : rest = []
    · rw [hrest, List.append_nil]
    · -- Something left over would have bytes that the slice does not reach.
      have hlt := bytes_extent_lt_append hrest (before ++ slice)
      rw [h] at hstop
      rw [List.append_assoc] at hlt
      omega
  · rintro rfl
    exact ⟨List.prefix_refl slice, by rw [h]⟩

/-! ## Occurrences of a token -/

/-- A token stands somewhere in a text if the text has it as an infix. -/
theorem occursIn_iff {needle text : List Char} :
    occursIn needle text = true ↔ needle <:+: text := by
  induction text with
  | nil => simp [occursIn]
  | cons c cs ih =>
    rw [occursIn, Bool.or_eq_true, ih, List.isPrefixOf_iff_prefix, List.infix_cons_iff]

/-- No occurrence of `token` starts inside `text`, where `next` follows the text. -/
def Avoids (token text next : List Char) : Prop :=
  ∀ a b, text = a ++ b → b ≠ [] → ¬ token <+: b ++ next

theorem Avoids.nil (token next : List Char) : Avoids token [] next := by
  intro a b hab hb
  exact absurd (List.append_eq_nil_iff.mp hab.symm).2 hb

theorem avoids_cons_iff {token text next : List Char} {c : Char} :
    Avoids token (c :: text) next ↔ ¬ token <+: c :: (text ++ next) ∧ Avoids token text next := by
  constructor
  · intro h
    refine ⟨h [] (c :: text) rfl (by simp), ?_⟩
    intro a b hab hb
    exact h (c :: a) b (by rw [hab, List.cons_append]) hb
  · rintro ⟨hhead, htail⟩ a b hab hb
    -- An occurrence starts at the first character, or inside the others.
    cases a with
    | nil =>
      rw [List.nil_append] at hab
      subst hab
      exact hhead
    | cons d a =>
      rw [List.cons_append, List.cons.injEq] at hab
      exact htail a b hab.2 hb

theorem avoids_append_iff {token u v next : List Char} :
    Avoids token (u ++ v) next ↔ Avoids token u (v ++ next) ∧ Avoids token v next := by
  induction u with
  | nil => simp [Avoids.nil]
  | cons c cs ih =>
    rw [List.cons_append, avoids_cons_iff, avoids_cons_iff, ih, List.append_assoc, and_assoc]

/-- Where the token itself follows, what is behind it does not matter: an occurrence that starts in
front of the token ends before the token does. -/
theorem prefix_append_token_iff {token text behind : List Char} :
    token <+: text ++ (token ++ behind) ↔ token <+: text ++ token := by
  rw [← List.append_assoc]
  constructor
  · intro hp
    -- The token is no longer than the text with the token behind it.
    have hlen : token.length ≤ (text ++ token).length := by simp
    exact List.prefix_of_prefix_length_le hp (List.prefix_append _ _) hlen
  · intro hp
    exact List.prefix_append_of_prefix hp

theorem Avoids.append_right {token text : List Char} (h : Avoids token text token)
    (behind : List Char) : Avoids token text (token ++ behind) := by
  intro a b hab hb hp
  exact h a b hab hb (prefix_append_token_iff.mp hp)

theorem Avoids.of_append_right {token text next behind : List Char}
    (h : Avoids token text (next ++ behind)) : Avoids token text next := by
  intro a b hab hb hp
  refine h a b hab hb ?_
  rw [← List.append_assoc]
  exact List.prefix_append_of_prefix hp

/-- A text without an occurrence of the token is static to its end. -/
theorem avoids_nil_iff {token text : List Char} (htoken : token ≠ []) :
    Avoids token text [] ↔ ¬ token <:+: text := by
  induction text with
  | nil =>
    simp only [List.infix_nil, htoken, not_false_eq_true, iff_true]
    exact Avoids.nil token []
  | cons c cs ih =>
    rw [avoids_cons_iff, ih, List.append_nil, List.infix_cons_iff, not_or]

/-- The search for a token gives the two sides of its first occurrence. -/
theorem splitFirst_eq_some_iff {needle text before behind : List Char} :
    splitFirst needle text = some (before, behind) ↔
      text = before ++ needle ++ behind ∧ Avoids needle before needle := by
  constructor
  · intro h
    refine ⟨splitFirst_eq_some h, ?_⟩
    induction text generalizing before with
    | nil =>
      have hnil := splitFirst_eq_some h
      simp only [List.append_assoc, List.nil_eq, List.append_eq_nil_iff] at hnil
      rw [hnil.1]
      exact Avoids.nil needle needle
    | cons c cs ih =>
      rw [splitFirst] at h
      split at h
      · -- The token stands here, and nothing is in front of it.
        cases h
        exact Avoids.nil needle needle
      · -- It does not stand here, so it stands nowhere in front of where it is found.
        next hhead =>
        obtain ⟨⟨inner, rest⟩, hinner, heq⟩ := Option.map_eq_some_iff.mp h
        cases heq
        rw [List.isPrefixOf_iff_prefix] at hhead
        refine avoids_cons_iff.mpr ⟨?_, ih hinner⟩
        intro hp
        rw [splitFirst_eq_some hinner] at hhead
        rw [← List.cons_append] at hp hhead
        exact hhead (List.prefix_append_of_prefix hp)
  · rintro ⟨rfl, havoids⟩
    induction before with
    | nil =>
      cases needle with
      | nil => cases behind <;> simp [splitFirst]
      | cons c cs => simp [splitFirst, List.isPrefixOf_iff_prefix]
    | cons c cs ih =>
      -- The search goes past a place where the token does not stand.
      obtain ⟨hhead, htail⟩ := avoids_cons_iff.mp (havoids.append_right behind)
      rw [List.cons_append, List.cons_append, splitFirst, if_neg, ih htail.of_append_right]
      · rfl
      · rw [List.isPrefixOf_iff_prefix, List.append_assoc]
        exact hhead

/-- The search for a token finds nothing only where the token occurs nowhere. -/
theorem splitFirst_eq_none_iff {needle text : List Char} :
    splitFirst needle text = none ↔ ¬ needle <:+: text := by
  constructor
  · rintro hnone ⟨before, behind, rfl⟩
    -- Along what is in front of an occurrence, the search cannot go past it.
    induction before with
    | nil =>
      cases needle with
      | nil => cases behind <;> simp [splitFirst] at hnone
      | cons c cs => simp [splitFirst, List.isPrefixOf_iff_prefix] at hnone
    | cons c cs ih =>
      simp only [List.cons_append, splitFirst] at hnone
      split at hnone
      · cases hnone
      · exact ih (Option.map_eq_none_iff.mp hnone)
  · intro hno
    cases hsplit : splitFirst needle text with
    | none => rfl
    | some sides =>
      obtain ⟨before, behind⟩ := sides
      exact absurd ⟨before, behind, (splitFirst_eq_some hsplit).symm⟩ hno

end Interpolation
