import Interpolation.Json.Writer
import Interpolation.Proofs.Json.Spelling
import Mathlib.Data.List.Forall2

/-!
# Compact JSON is JSON

The written form of a string spells a string of the same characters: controls are written as code
units, and are read back as such, but what they mean is the character.  An object is written as its
members, without any space.

## Main results

- `hexUnit?_hexDigit`: the four digits of a code unit are read back.
- `exists_spells_writeChar`, `exists_spells_write`: the written form of a character and of a string.
- `exists_writesMember`, `spells_writeCompact`: the compact form of a member and of an object.
-/

namespace Interpolation.Json

variable {c : Char} {t : List Char}

/-! ## Layer A: characters -/

theorem hexValue?_hexDigit (n : Nat) : hexValue? (hexDigit n) = some (n % 16) := by
  have hall : ∀ k < 16, hexValue? (Nat.digitChar k) = some k := by decide
  exact hall (n % 16) (Nat.mod_lt n (by decide))

theorem hexUnit?_hexDigit {n : Nat} (hn : n < 0x10000) :
    hexUnit? (hexDigit (n / 4096)) (hexDigit (n / 256)) (hexDigit (n / 16)) (hexDigit n) =
      some n := by
  -- Four digits to the base sixteen make up the number.
  simp only [hexUnit?, hexValue?_hexDigit, Option.bind_eq_bind, Option.bind_some, Option.pure_def,
    Option.some.injEq]
  omega

/-- A unit that means one character, whatever units follow. -/
def Means (unit : JsonUnit) (c : Char) : Prop :=
  ∀ units : JsonText, JsonText.toChars? (unit :: units) = units.toChars?.map (c :: ·)

theorem means_char (c : Char) : Means (.char c) c := fun _ => by rw [JsonText.toChars?]

/-- The code unit of a control is no half of a pair, so it means the control. -/
theorem means_code (hc : c.toNat < 0x20) : Means (.code c.toNat) c := by
  intro units
  have hhigh : JsonText.isHighHalf c.toNat = false := by
    simp only [JsonText.isHighHalf, Bool.and_eq_false_iff, decide_eq_false_iff_not]
    omega
  have hlow : JsonText.isLowHalf c.toNat = false := by
    simp only [JsonText.isLowHalf, Bool.and_eq_false_iff, decide_eq_false_iff_not]
    omega
  rw [JsonText.toChars?.eq_def]
  simp [hhigh, hlow]

/-- The written form of a character spells a unit that means the character. -/
theorem exists_spells_writeChar (c : Char) :
    ∃ unit, SpellsUnit unit (writeChar c) ∧ Means unit c := by
  unfold writeChar
  -- The characters that have an escape of one letter.
  iterate 7
    split
    · next hc =>
      subst hc
      exact ⟨_, .letter rfl, means_char _⟩
  split
  · -- Another control is written as its code unit.
    next hc => exact ⟨_, .code (hexUnit?_hexDigit (by omega)), means_code hc⟩
  · next hquote hslash _ _ _ _ _ hcontrol =>
    exact ⟨_, .plain hquote hslash (Nat.le_of_not_lt hcontrol), means_char c⟩

/-! ## Layer B: strings and members -/

/-- The characters of a string are written one by one, and the quote closes it. -/
theorem exists_spells_flatMap (cs : List Char) :
    ∃ units, SpellsText units (cs.flatMap writeChar ++ ['"']) ∧
      JsonText.toChars? units = some cs := by
  induction cs with
  | nil => exact ⟨[], .close, rfl⟩
  | cons c cs ih =>
    obtain ⟨units, hunits, hmeaning⟩ := ih
    obtain ⟨unit, hunit, hmeans⟩ := exists_spells_writeChar c
    refine ⟨unit :: units, ?_, ?_⟩
    · rw [List.flatMap_cons, List.append_assoc]
      exact .unit hunit hunits
    · rw [hmeans, hmeaning, Option.map_some]

/-- The written form of a string spells a string of the same characters. -/
theorem exists_spells_write (s : String) :
    ∃ units t, (JsonText.ofString s).write = '"' :: t ∧ SpellsText units t ∧
      units.toString? = some s := by
  obtain ⟨units, hunits, hmeaning⟩ := exists_spells_flatMap s.toList
  refine ⟨units, _, rfl, ?_, ?_⟩
  · rw [JsonText.ofString, List.flatMap_map]
    exact hunits
  · rw [JsonText.toString?, hmeaning, Option.map_some, String.ofList_toList]

/-- The member as it is written spells the other member. -/
def WritesMember (member spelled : JsonText × Json) : Prop :=
  SpellsMember spelled (member.1.write ++ ':' :: member.2.writeCompact)

/-- The written form of a member spells a member of the same name. -/
theorem exists_writesMember (name : String) {json spelled : Json}
    (h : Spells spelled json.writeCompact) :
    ∃ units, WritesMember (.ofString name, json) (units, spelled) ∧
      units.toString? = some name := by
  obtain ⟨units, n, hwrite, hunits, hname⟩ := exists_spells_write name
  refine ⟨units, ?_, hname⟩
  rw [WritesMember, hwrite]
  exact .intro hunits IsGap.nil IsGap.nil h

theorem exists_spells_ofString (s : String) :
    ∃ units, Spells (.string units) (writeCompact (.ofString s)) ∧ units.toString? = some s := by
  obtain ⟨units, t, hwrite, hunits, hs⟩ := exists_spells_write s
  refine ⟨units, ?_, hs⟩
  rw [Json.ofString, writeCompact, hwrite]
  exact .string hunits

theorem spells_bool (b : Bool) : Spells (.bool b) (writeCompact (.bool b)) := by
  cases b with
  | true => exact .boolTrue
  | false => exact .boolFalse

/-! ## Layer C: objects -/

/-- The members behind the first one are written with a comma in front of each. -/
theorem spells_writeCompactMembers {members spelled : List (JsonText × Json)}
    (h : List.Forall₂ WritesMember members spelled) {first : JsonText × Json}
    (hfirst : SpellsMember first t) :
    SpellsMembers (first :: spelled) (t ++ writeCompactMembers members) := by
  -- Along the members; the first of them waits for the comma or the brace behind it.
  induction h generalizing first t with
  | nil => exact .last hfirst IsGap.nil
  | @cons member spelled members rest hmember _ ih =>
    have hrest := SpellsMembers.next hfirst IsGap.nil IsGap.nil (ih hmember)
    simpa [writeCompactMembers] using hrest

/-- **The compact form of an object spells an object** whose members spell its own. -/
theorem spells_writeCompact {members spelled : List (JsonText × Json)} (hne : members ≠ [])
    (h : List.Forall₂ WritesMember members spelled) :
    Spells (.object spelled) (writeCompact (.object members)) := by
  cases h with
  | nil => exact absurd rfl hne
  | @cons member first members rest hfirst hrest =>
    have hmembers := Spells.members IsGap.nil (spells_writeCompactMembers hrest hfirst)
    simpa [writeCompact] using hmembers

end Interpolation.Json
