import Interpolation.Json.Reader
import Interpolation.Proofs.Grammar.Token

/-!
# How JSON documents are spelled

The grammar of JSON as relations between what is meant and the text that spells it.  A document has
many spellings: space may stand between any two tokens, a character of a string may be escaped, and
the power of a number may have a sign and a mark of either case.

## Main definitions

- `IsGap`: space between tokens.
- `SpellsNumber`, `SpellsText`: the spellings of numbers and strings.
- `Spells`, `SpellsItems`, `SpellsMembers`: the spellings of documents.
- `IsDocument`: the texts of a document.

## Main results

- `readNumber_eq`, `spells_of_readNumber`: numbers are read as they are spelled.
- `readText_eq`, `spells_of_readText`: strings are.
-/

namespace Interpolation.Json

open Grammar (Stops stops_cons_iff takeWhile_run dropWhile_run forall_mem_takeWhile)

variable {text rest u w ds : List Char} {c : Char}

/-! ## Layer A: the grammar -/

/-- Space between tokens, which means nothing. -/
def IsGap (w : List Char) : Prop := ∀ c ∈ w, isSpace c = true

/-- One decimal digit or more. -/
structure IsDigits (ds : List Char) : Prop where
  /-- There is a digit. -/
  ne_nil : ds ≠ []
  /-- There is nothing but digits. -/
  isDigit : ∀ c ∈ ds, c.isDigit = true

/-- The digits behind a point; without any there is no point. -/
inductive SpellsFraction : List Char → List Char → Prop where
  /-- There is no fraction. -/
  | none : SpellsFraction [] []
  /-- A point has digits behind it. -/
  | digits {ds : List Char} : IsDigits ds → SpellsFraction ds ('.' :: ds)

/-- The sign of a power; it is true for a negative one. -/
inductive SpellsSign : Bool → List Char → Prop where
  /-- Without a sign the power is positive. -/
  | none : SpellsSign false []
  /-- A plus sign makes no difference. -/
  | plus : SpellsSign false ['+']
  /-- A minus sign makes the power negative. -/
  | minus : SpellsSign true ['-']

/-- The power of ten of a number, with a mark of either case. -/
inductive SpellsExponent : Option (Bool × List Char) → List Char → Prop where
  /-- There is no power. -/
  | none : SpellsExponent .none []
  /-- A mark, a sign and digits. -/
  | power {mark : Char} {negative : Bool} {sign ds : List Char} :
      mark = 'e' ∨ mark = 'E' → SpellsSign negative sign → IsDigits ds →
      SpellsExponent (some (negative, ds)) (mark :: (sign ++ ds))

/-- A number has no leading zero. -/
inductive SpellsNumber : JsonNumber → List Char → Prop where
  /-- The parts stand in this order, with nothing between them. -/
  | intro {negative : Bool} {whole fraction f e : List Char}
      {exponent? : Option (Bool × List Char)} :
      IsDigits whole → (whole.head? = some '0' → whole = ['0']) → SpellsFraction fraction f →
      SpellsExponent exponent? e →
      SpellsNumber ⟨negative, whole, fraction, exponent?⟩
        ((if negative then ['-'] else []) ++ (whole ++ (f ++ e)))

/-- One unit of a string.  Quotes, backslashes and controls do not stand for themselves. -/
inductive SpellsUnit : JsonUnit → List Char → Prop where
  /-- A character that stands for itself. -/
  | plain {c : Char} : c ≠ '"' → c ≠ '\\' → 0x20 ≤ c.toNat → SpellsUnit (.char c) [c]
  /-- An escape of one letter. -/
  | letter {l c : Char} : letterEscapes.lookup l = some c → SpellsUnit (.char c) ['\\', l]
  /-- An escape of four hexadecimal digits. -/
  | code {a b c d : Char} {n : Nat} :
      hexUnit? a b c d = some n → SpellsUnit (.code n) ['\\', 'u', a, b, c, d]

/-- The units of a string, with the quote that ends it. -/
inductive SpellsText : JsonText → List Char → Prop where
  /-- The string is over. -/
  | close : SpellsText [] ['"']
  /-- A unit, and what follows it. -/
  | unit {unit : JsonUnit} {units : JsonText} {piece t : List Char} :
      SpellsUnit unit piece → SpellsText units t → SpellsText (unit :: units) (piece ++ t)

mutual

/-- A document and a text that spells it, with no space at its ends. -/
inductive Spells : Json → List Char → Prop where
  | null : Spells .null ['n', 'u', 'l', 'l']
  | boolTrue : Spells (.bool true) ['t', 'r', 'u', 'e']
  | boolFalse : Spells (.bool false) ['f', 'a', 'l', 's', 'e']
  | number {n : JsonNumber} {t : List Char} : SpellsNumber n t → Spells (.number n) t
  | string {units : JsonText} {t : List Char} :
      SpellsText units t → Spells (.string units) ('"' :: t)
  | noItems {w : List Char} : IsGap w → Spells (.array []) ('[' :: (w ++ [']']))
  | items {items : List Json} {w t : List Char} :
      IsGap w → SpellsItems items t → Spells (.array items) ('[' :: (w ++ t))
  | noMembers {w : List Char} : IsGap w → Spells (.object []) ('{' :: (w ++ ['}']))
  | members {members : List (JsonText × Json)} {w t : List Char} :
      IsGap w → SpellsMembers members t → Spells (.object members) ('{' :: (w ++ t))

/-- The items of an array from the first one on, with the bracket that closes the array. -/
inductive SpellsItems : List Json → List Char → Prop where
  /-- The last item, with the closing bracket. -/
  | last {item : Json} {t w : List Char} :
      Spells item t → IsGap w → SpellsItems [item] (t ++ (w ++ [']']))
  /-- An item with a comma behind it, and the other items. -/
  | next {item : Json} {items : List Json} {t w v u : List Char} :
      Spells item t → IsGap w → IsGap v → SpellsItems items u →
      SpellsItems (item :: items) (t ++ (w ++ ',' :: (v ++ u)))

/-- A member of an object: its name, and its value behind a colon. -/
inductive SpellsMember : JsonText × Json → List Char → Prop where
  /-- Space may stand on either side of the colon. -/
  | intro {name : JsonText} {value : Json} {n w v t : List Char} :
      SpellsText name n → IsGap w → IsGap v → Spells value t →
      SpellsMember (name, value) ('"' :: (n ++ (w ++ ':' :: (v ++ t))))

/-- The members of an object from the first one on, with the brace that closes the object. -/
inductive SpellsMembers : List (JsonText × Json) → List Char → Prop where
  /-- The last member, with the closing brace. -/
  | last {member : JsonText × Json} {t w : List Char} :
      SpellsMember member t → IsGap w → SpellsMembers [member] (t ++ (w ++ ['}']))
  /-- A member with a comma behind it, and the other members. -/
  | next {member : JsonText × Json} {members : List (JsonText × Json)} {t w v u : List Char} :
      SpellsMember member t → IsGap w → IsGap v → SpellsMembers members u →
      SpellsMembers (member :: members) (t ++ (w ++ ',' :: (v ++ u)))

end

/-- A text that spells a document, with nothing but space around it. -/
def IsDocument (text : String) (json : Json) : Prop :=
  ∃ w t v, IsGap w ∧ Spells json t ∧ IsGap v ∧ text.toList = w ++ (t ++ v)

/-! ## Layer B: space and digits -/

theorem IsGap.nil : IsGap [] := List.forall_mem_nil _

theorem IsGap.append (hu : IsGap u) (hw : IsGap w) : IsGap (u ++ w) :=
  List.forall_mem_append.mpr ⟨hu, hw⟩

theorem skipSpace_gap (hw : IsGap w) (hrest : Stops isSpace rest) : skipSpace (w ++ rest) = rest :=
  dropWhile_run hw hrest

theorem skipSpace_cons (hc : isSpace c = false) : skipSpace (c :: rest) = c :: rest :=
  skipSpace_gap IsGap.nil (stops_cons_iff.mpr hc)

theorem exists_gap (text : List Char) : ∃ w, IsGap w ∧ text = w ++ skipSpace text :=
  ⟨text.takeWhile isSpace, forall_mem_takeWhile isSpace text,
    List.takeWhile_append_dropWhile.symm⟩

theorem readDigits_eq (hds : ∀ c ∈ ds, c.isDigit = true) (hrest : Stops Char.isDigit rest) :
    readDigits (ds ++ rest) = (ds, rest) := by
  rw [readDigits, takeWhile_run hds hrest, dropWhile_run hds hrest]

theorem digits_of_readDigits (hne : (readDigits text).1 ≠ []) : IsDigits (readDigits text).1 :=
  ⟨hne, forall_mem_takeWhile Char.isDigit text⟩

theorem readDigits_append (text : List Char) :
    text = (readDigits text).1 ++ (readDigits text).2 :=
  List.takeWhile_append_dropWhile.symm

/-! ## Layer C: numbers -/

/-- What a number could go on with. -/
def goesOn (c : Char) : Bool := c.isDigit || c = '.' || c = 'e' || c = 'E'

/-- What goes on with no number goes on with nothing that a number could go on with. -/
theorem stops_of_goesOn {test : Char → Bool} (h : Stops goesOn rest)
    (htest : ∀ c, test c = true → goesOn c = true) : Stops test rest := by
  intro c hc
  have hstop := h c hc
  cases htrue : test c with
  | false => rfl
  -- Such a character would go on with the number.
  | true =>
    rw [htest c htrue] at hstop
    cases hstop

theorem stops_digit_of_goesOn (h : Stops goesOn rest) : Stops Char.isDigit rest :=
  stops_of_goesOn h fun c hc => by simp [goesOn, hc]

/-- Behind the digits of a number no digit follows, and no point without digits. -/
theorem SpellsExponent.stops {exponent? : Option (Bool × List Char)} {e : List Char}
    (h : SpellsExponent exponent? e) (hrest : Stops goesOn rest) :
    Stops Char.isDigit (e ++ rest) ∧ Stops (· = '.') (e ++ rest) := by
  cases h with
  -- Without a power it is the text behind that must not go on.
  | none =>
    refine ⟨stops_digit_of_goesOn hrest, stops_of_goesOn hrest fun c hc => ?_⟩
    simp [goesOn, of_decide_eq_true hc]
  | power hmark _ _ =>
    rcases hmark with rfl | rfl <;>
      exact ⟨stops_cons_iff.mpr (by decide), stops_cons_iff.mpr (by decide)⟩

theorem SpellsFraction.stops_digit {fraction f : List Char} (h : SpellsFraction fraction f)
    (hrest : Stops Char.isDigit rest) : Stops Char.isDigit (f ++ rest) := by
  cases h with
  | none => exact hrest
  | digits _ => exact stops_cons_iff.mpr (by decide)

theorem IsDigits.exists_cons (h : IsDigits ds) : ∃ c cs, ds = c :: cs ∧ c.isDigit = true := by
  obtain ⟨c, cs, rfl⟩ := List.exists_cons_of_ne_nil h.ne_nil
  exact ⟨c, cs, rfl, h.isDigit c List.mem_cons_self⟩

/-- The sign of a power is read in front of its digits. -/
theorem readSign_eq {negative : Bool} {sign : List Char} (h : SpellsSign negative sign)
    (hds : IsDigits ds) : readSign (sign ++ (ds ++ rest)) = (negative, ds ++ rest) := by
  cases h with
  | plus => rfl
  | minus => rfl
  | none =>
    -- A digit is no sign.
    obtain ⟨c, cs, rfl, hc⟩ := hds.exists_cons
    unfold readSign
    split
    · next heq =>
      cases heq
      cases hc
    · next heq =>
      cases heq
      cases hc
    · rfl

/-- The power of ten is read where nothing goes on with it. -/
theorem readExponent_eq {exponent? : Option (Bool × List Char)} {e : List Char}
    (h : SpellsExponent exponent? e) (hrest : Stops goesOn rest) :
    readExponent (e ++ rest) = some (exponent?, rest) := by
  cases h with
  | none =>
    cases rest with
    | nil => rfl
    | cons c cs =>
      have hc := stops_cons_iff.mp hrest
      -- No mark follows, since a number could go on with it.
      have hmark : ¬ (c = 'e' ∨ c = 'E') := by
        rintro (rfl | rfl) <;> cases hc
      simp [readExponent, hmark]
  | power hmark hsign hds =>
    have hread := readDigits_eq hds.isDigit (stops_digit_of_goesOn hrest)
    simp only [List.cons_append, readExponent, if_pos hmark, List.append_assoc,
      readSign_eq hsign hds, hread, if_neg hds.ne_nil]

/-- The fraction is read where no digit follows it, and no point where there is none. -/
theorem readFraction_eq {fraction f : List Char} (h : SpellsFraction fraction f)
    (hdigit : Stops Char.isDigit rest) (hpoint : Stops (· = '.') rest) :
    readFraction (f ++ rest) = some (fraction, rest) := by
  cases h with
  | none =>
    unfold readFraction
    split
    · next cs heq =>
      rw [List.nil_append] at heq
      rw [heq] at hpoint
      cases stops_cons_iff.mp hpoint
    · rfl
  | digits hds =>
    simp only [List.cons_append, readFraction, readDigits_eq hds.isDigit hdigit, if_neg hds.ne_nil]

/-- A number behind its sign is read part by part. -/
theorem readUnsigned_eq {whole fraction f e : List Char} {exponent? : Option (Bool × List Char)}
    (negative : Bool) (hwhole : IsDigits whole)
    (hzero : whole.head? = some '0' → whole = ['0']) (hf : SpellsFraction fraction f)
    (he : SpellsExponent exponent? e) (hrest : Stops goesOn rest) :
    readUnsigned negative (whole ++ (f ++ (e ++ rest))) =
      some (⟨negative, whole, fraction, exponent?⟩, rest) := by
  obtain ⟨hdigit, hpoint⟩ := he.stops hrest
  -- The two reasons for refusing a number do not apply.
  have hfits : ¬ (whole = [] ∨ whole.head? = some '0' ∧ 1 < whole.length) := by
    rintro (hnil | ⟨hhead, hlong⟩)
    · exact hwhole.ne_nil hnil
    · simp [hzero hhead] at hlong
  simp only [readUnsigned, readDigits_eq hwhole.isDigit (hf.stops_digit hdigit), if_neg hfits]
  simp [readFraction_eq hf hdigit hpoint, readExponent_eq he hrest]

/-- A number is read back where the text behind it cannot go on with it. -/
theorem readNumber_eq {n : JsonNumber} (h : SpellsNumber n u) (hrest : Stops goesOn rest) :
    readNumber (u ++ rest) = some (n, rest) := by
  cases h with
  | @intro negative whole fraction f e exponent? hwhole hzero hf he =>
    have hread := readUnsigned_eq negative hwhole hzero hf he hrest
    simp only [List.append_assoc]
    cases negative with
    | true => exact hread
    -- The first digit is not taken for a sign.
    | false =>
      obtain ⟨c, cs, rfl, hc⟩ := hwhole.exists_cons
      unfold readNumber
      split
      · next heq =>
        cases heq
        cases hc
      · exact hread

theorem exists_sign (text : List Char) :
    ∃ sign, SpellsSign (readSign text).1 sign ∧ text = sign ++ (readSign text).2 := by
  unfold readSign
  split
  · exact ⟨['-'], .minus, rfl⟩
  · exact ⟨['+'], .plus, rfl⟩
  · exact ⟨[], .none, rfl⟩

/-- What is read as the power of ten spells it. -/
theorem spells_of_readExponent {exponent? : Option (Bool × List Char)}
    (h : readExponent text = some (exponent?, rest)) :
    ∃ e, SpellsExponent exponent? e ∧ text = e ++ rest := by
  cases text with
  | nil =>
    cases h
    exact ⟨[], .none, rfl⟩
  | cons c cs =>
    rw [readExponent] at h
    split at h
    · next hmark =>
      obtain ⟨sign, hsign, hcs⟩ := exists_sign cs
      simp only [Option.ite_none_left_eq_some, Option.some.injEq, Prod.mk.injEq] at h
      obtain ⟨hne, rfl, rfl⟩ := h
      refine ⟨_, .power hmark hsign (digits_of_readDigits hne), ?_⟩
      rw [List.cons_append, List.append_assoc, ← readDigits_append, ← hcs]
    · cases h
      exact ⟨[], .none, rfl⟩

/-- What is read as the fraction spells it. -/
theorem spells_of_readFraction {fraction : List Char}
    (h : readFraction text = some (fraction, rest)) :
    ∃ f, SpellsFraction fraction f ∧ text = f ++ rest := by
  unfold readFraction at h
  split at h
  · next cs =>
    simp only [Option.ite_none_left_eq_some, Option.some.injEq, Prod.mk.injEq] at h
    obtain ⟨hne, rfl, rfl⟩ := h
    exact ⟨_, .digits (digits_of_readDigits hne), congrArg ('.' :: ·) (readDigits_append cs)⟩
  · cases h
    exact ⟨[], .none, rfl⟩

/-- A text that starts with a character and is no longer is that character. -/
theorem eq_singleton_of_head? {cs : List Char} (hhead : cs.head? = some c)
    (hshort : ¬ 1 < cs.length) : cs = [c] := by
  cases cs with
  | nil => cases hhead
  | cons d ds =>
    cases hhead
    cases ds with
    | nil => rfl
    | cons e es => simp at hshort

/-- What is read behind the sign spells the number with that sign in front. -/
theorem spells_of_readUnsigned {negative : Bool} {n : JsonNumber}
    (h : readUnsigned negative text = some (n, rest)) :
    ∃ u, SpellsNumber n ((if negative then ['-'] else []) ++ u) ∧ text = u ++ rest := by
  simp only [readUnsigned] at h
  split at h
  · cases h
  · next hfits =>
    obtain ⟨⟨fraction, behind⟩, hfraction, h⟩ := Option.bind_eq_some_iff.mp h
    obtain ⟨⟨exponent?, last⟩, hexponent, h⟩ := Option.bind_eq_some_iff.mp h
    cases h
    obtain ⟨f, hf, hbehind⟩ := spells_of_readFraction hfraction
    obtain ⟨e, he, rfl⟩ := spells_of_readExponent hexponent
    rw [not_or] at hfits
    refine ⟨_, .intro (digits_of_readDigits hfits.1) ?_ hf he, ?_⟩
    · -- A zero in front is not refused only if nothing follows it.
      intro hhead
      exact eq_singleton_of_head? hhead fun hlong => hfits.2 ⟨hhead, hlong⟩
    · rw [List.append_assoc, List.append_assoc, ← hbehind, ← readDigits_append]

/-- What is read as a number spells the number. -/
theorem spells_of_readNumber {n : JsonNumber} (h : readNumber text = some (n, rest)) :
    ∃ u, SpellsNumber n u ∧ text = u ++ rest := by
  unfold readNumber at h
  split at h
  · obtain ⟨u, hu, rfl⟩ := spells_of_readUnsigned h
    exact ⟨_, hu, rfl⟩
  · obtain ⟨u, hu, rfl⟩ := spells_of_readUnsigned h
    exact ⟨_, hu, rfl⟩

/-! ## Layer D: strings -/

theorem ne_of_lookup {l : Char} (h : letterEscapes.lookup l = some c) : l ≠ 'u' := by
  rintro rfl
  cases h

/-- One unit of a string is read, and the string goes on behind it. -/
theorem readText_unit {unit : JsonUnit} (h : SpellsUnit unit u) (text : List Char) :
    readText (u ++ text) = (readText text).map fun read => (unit :: read.1, read.2) := by
  cases h with
  | plain hquote hslash hprint =>
    have hcontrol := Nat.not_lt.mpr hprint
    simp [readText, hslash, hcontrol]
  -- The escape of a code unit is tried first, and no letter looks like one.
  | letter hletter =>
    have hu := ne_of_lookup hletter
    cases htext : readText text <;> simp [readText, hu, hletter, htext]
  | code hcode =>
    cases htext : readText text <;> simp [readText, hcode, htext]

theorem readText_eq {units : JsonText} (h : SpellsText units u) (rest : List Char) :
    readText (u ++ rest) = some (units, rest) := by
  induction h with
  | close => rfl
  | unit hunit _ ih => rw [List.append_assoc, readText_unit hunit, ih, Option.map_some]

/-- What is read as a string spells the string. -/
theorem spells_of_readText {units : JsonText} (h : readText text = some (units, rest)) :
    ∃ u, SpellsText units u ∧ text = u ++ rest := by
  fun_induction readText text generalizing units with
  | case1 => cases h
  | case2 cs =>
    cases h
    exact ⟨_, .close, rfl⟩
  -- An escape of a code unit, of a letter, and a plain character.
  | case3 a b c d cs ih =>
    obtain ⟨n, hn, h⟩ := Option.bind_eq_some_iff.mp h
    obtain ⟨⟨inner, behind⟩, hinner, h⟩ := Option.bind_eq_some_iff.mp h
    cases h
    obtain ⟨u, hu, rfl⟩ := ih hinner
    exact ⟨_, .unit (.code hn) hu, rfl⟩
  | case4 letter cs _ ih =>
    obtain ⟨c, hc, h⟩ := Option.bind_eq_some_iff.mp h
    obtain ⟨⟨inner, behind⟩, hinner, h⟩ := Option.bind_eq_some_iff.mp h
    cases h
    obtain ⟨u, hu, rfl⟩ := ih hinner
    exact ⟨_, .unit (.letter hc) hu, rfl⟩
  | case5 => cases h
  | case6 c cs hquote _ _ hclear ih =>
    obtain ⟨⟨inner, behind⟩, hinner, heq⟩ := Option.map_eq_some_iff.mp h
    cases heq
    obtain ⟨u, hu, rfl⟩ := ih hinner
    rw [not_or, Nat.not_lt] at hclear
    exact ⟨_, .unit (.plain hquote hclear.1 hclear.2) hu, rfl⟩

end Interpolation.Json
