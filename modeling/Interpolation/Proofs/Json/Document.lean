import Interpolation.Proofs.Json.Spelling

/-!
# Reading JSON documents

The reader accepts the texts that spell a document, and no others, and it reads the document that
they spell.  It goes down into arrays and objects with a supply of fuel; the length of a text is
enough for all that the text can hold.

## Main definitions

- `Reads`: some fuel is enough for all that is no longer than it.
- `Spelled`: what is read with some fuel is spelled by the text.

## Main results

- `reads`, `spelled`: both hold of any fuel.
- `parse?_eq_some_iff`: a text is read as a document exactly if it spells the document.
-/

namespace Interpolation.Json

open Grammar (Stops stops_nil stops_cons_iff ne_of_test)

variable {text rest t u v w : List Char} {c : Char} {fuel : Nat} {json : Json}
  {items : List Json} {members : List (JsonText × Json)}

/-! ## Layer A: how documents start, and what follows them -/

/-- The characters that a number may start with. -/
def startsNumber (c : Char) : Bool := c = '-' || c.isDigit

/-- A number starts with a digit or with the minus sign. -/
theorem SpellsNumber.exists_cons {n : JsonNumber} (h : SpellsNumber n t) :
    ∃ c cs, t = c :: cs ∧ startsNumber c = true := by
  cases h with
  | @intro negative whole fraction f e exponent? hwhole _ _ _ =>
    cases negative with
    | true => exact ⟨'-', _, rfl, rfl⟩
    | false =>
      obtain ⟨c, cs, rfl, hc⟩ := hwhole.exists_cons
      exact ⟨c, _, rfl, by simp [startsNumber, hc]⟩

/-- What starts a document: no space, and not what closes an array. -/
def startsValue (c : Char) : Bool := !isSpace c && c ≠ ']'

/-- A number is neither space nor the end of an array. -/
theorem startsValue_of_startsNumber (hc : startsNumber c = true) : startsValue c = true := by
  have hbracket : c ≠ ']' := ne_of_test hc rfl
  have hblank : c ≠ ' ' := ne_of_test hc rfl
  have hfeed : c ≠ '\n' := ne_of_test hc rfl
  have htab : c ≠ '\t' := ne_of_test hc rfl
  have hreturn : c ≠ '\r' := ne_of_test hc rfl
  simp [startsValue, isSpace, hbracket, hblank, hfeed, htab, hreturn]

/-- A document starts with a character that no other token of an array starts with. -/
theorem Spells.exists_cons (h : Spells json t) : ∃ c cs, t = c :: cs ∧ startsValue c = true := by
  cases h with
  -- All other documents show their first character.
  | number hn =>
    obtain ⟨c, cs, rfl, hc⟩ := hn.exists_cons
    exact ⟨c, cs, rfl, startsValue_of_startsNumber hc⟩
  | _ => exact ⟨_, _, rfl, rfl⟩

/-- Items start as the first one does. -/
theorem SpellsItems.exists_cons (h : SpellsItems items t) :
    ∃ c cs, t = c :: cs ∧ startsValue c = true := by
  cases h with
  | last hitem _ =>
    obtain ⟨c, cs, rfl, hc⟩ := hitem.exists_cons
    exact ⟨c, _, rfl, hc⟩
  | next hitem _ _ _ =>
    obtain ⟨c, cs, rfl, hc⟩ := hitem.exists_cons
    exact ⟨c, _, rfl, hc⟩

theorem SpellsMember.exists_cons {member : JsonText × Json} (h : SpellsMember member t) :
    ∃ cs, t = '"' :: cs := by
  cases h with
  | intro _ _ _ _ => exact ⟨_, rfl⟩

/-- Members start with the quote of the first name. -/
theorem SpellsMembers.exists_cons (h : SpellsMembers members t) : ∃ cs, t = '"' :: cs := by
  cases h with
  | last hmember _ =>
    obtain ⟨cs, rfl⟩ := hmember.exists_cons
    exact ⟨_, rfl⟩
  | next hmember _ _ _ =>
    obtain ⟨cs, rfl⟩ := hmember.exists_cons
    exact ⟨_, rfl⟩

theorem goesOn_of_isSpace (hc : isSpace c = true) : goesOn c = false := by
  simp only [isSpace, Bool.or_eq_true, decide_eq_true_eq, or_assoc] at hc
  rcases hc with rfl | rfl | rfl | rfl <;> rfl

/-- A number does not go on behind space. -/
theorem stops_goesOn_gap (hw : IsGap w) (hrest : Stops goesOn rest) : Stops goesOn (w ++ rest) := by
  cases w with
  | nil => exact hrest
  | cons c cs => exact stops_cons_iff.mpr (goesOn_of_isSpace (hw c List.mem_cons_self))

/-! ## Layer B: space in front -/

theorem skipSpace_append (hw : IsGap w) (text : List Char) :
    skipSpace (w ++ text) = skipSpace text :=
  List.dropWhile_append_of_pos hw

theorem readValue_gap (hw : IsGap w) (text : List Char) :
    readValue fuel (w ++ text) = readValue fuel text := by
  cases fuel with
  | zero => rfl
  | succ fuel => rw [readValue, readValue, skipSpace_append hw]

theorem readItems_gap (hw : IsGap w) (text : List Char) :
    readItems fuel (w ++ text) = readItems fuel text := by
  cases fuel with
  | zero => rfl
  | succ fuel => rw [readItems, readItems, readValue_gap hw]

theorem readMembers_gap (hw : IsGap w) (text : List Char) :
    readMembers fuel (w ++ text) = readMembers fuel text := by
  cases fuel with
  | zero => rfl
  | succ fuel => rw [readMembers, readMembers, skipSpace_append hw]

/-! ## Layer C: what is spelled is read -/

/-- With this much fuel all that is no longer is read as it is spelled. -/
structure Reads (fuel : Nat) : Prop where
  /-- A document, in front of a text that goes on with no number. -/
  value : ∀ {json t}, Spells json t → t.length ≤ fuel → ∀ {rest}, Stops goesOn rest →
    readValue fuel (t ++ rest) = some (json, rest)
  /-- Items with the bracket that closes them, in front of any text. -/
  items : ∀ {items t}, SpellsItems items t → t.length ≤ fuel → ∀ rest,
    readItems fuel (t ++ rest) = some (items, rest)
  /-- Members with the brace that closes them, in front of any text. -/
  members : ∀ {members t}, SpellsMembers members t → t.length ≤ fuel → ∀ rest,
    readMembers fuel (t ++ rest) = some (members, rest)

/-- A number is read as a document. -/
theorem readValue_number {n : JsonNumber} (h : SpellsNumber n t) (hrest : Stops goesOn rest) :
    readValue (fuel + 1) (t ++ rest) = some (.number n, rest) := by
  have hread := readNumber_eq h hrest
  obtain ⟨c, cs, rfl, hc⟩ := h.exists_cons
  -- The number is not skipped as space.
  have hspace : isSpace c = false := by
    have hvalue := startsValue_of_startsNumber hc
    simp only [startsValue, Bool.and_eq_true, Bool.not_eq_true'] at hvalue
    exact hvalue.1
  rw [List.cons_append] at hread ⊢
  rw [readValue, skipSpace_cons hspace]
  -- None of the other documents starts like a number.
  split
  iterate 6
    · next heq => exact absurd (List.cons.inj heq).1 (ne_of_test hc rfl)
  · rw [hread, Option.map_some]

/-- One more unit of fuel is enough for a document, whose parts are shorter. -/
theorem Reads.readValue_succ (h : Reads fuel) (ht : Spells json t) (hlen : t.length ≤ fuel + 1)
    (hrest : Stops goesOn rest) : readValue (fuel + 1) (t ++ rest) = some (json, rest) := by
  cases ht with
  | null => rfl
  | boolTrue => rfl
  | boolFalse => rfl
  | number hn => exact readValue_number hn hrest
  | string htext =>
    rw [List.cons_append, readValue, skipSpace_cons rfl]
    simp [readText_eq htext]
  | noItems hw =>
    rw [List.cons_append, List.append_assoc, readValue, skipSpace_cons rfl]
    simp [skipSpace_append hw, skipSpace_cons (c := ']') rfl]
  -- Items are not the end of the array, so the reader goes for them.
  | items hw hitems =>
    simp only [List.length_cons, List.length_append] at hlen
    have hread := h.items hitems (by omega) rest
    obtain ⟨c, cs, rfl, hc⟩ := hitems.exists_cons
    simp only [startsValue, Bool.and_eq_true, Bool.not_eq_true', decide_eq_true_eq] at hc
    rw [List.cons_append] at hread
    rw [List.cons_append, List.append_assoc, List.cons_append, readValue, skipSpace_cons rfl]
    simp [skipSpace_append hw, skipSpace_cons hc.1, hc.2, hread]
  | noMembers hw =>
    rw [List.cons_append, List.append_assoc, readValue, skipSpace_cons rfl]
    simp [skipSpace_append hw, skipSpace_cons (c := '}') rfl]
  | members hw hmembers =>
    simp only [List.length_cons, List.length_append] at hlen
    have hread := h.members hmembers (by omega) rest
    obtain ⟨cs, rfl⟩ := hmembers.exists_cons
    rw [List.cons_append] at hread
    rw [List.cons_append, List.append_assoc, List.cons_append, readValue, skipSpace_cons rfl]
    simp [skipSpace_append hw, skipSpace_cons (c := '"') rfl, hread]

/-- One more unit of fuel is enough for items. -/
theorem Reads.readItems_succ (h : Reads fuel) (ht : SpellsItems items t)
    (hlen : t.length ≤ fuel + 1) (rest : List Char) :
    readItems (fuel + 1) (t ++ rest) = some (items, rest) := by
  cases ht with
  | @last item t w hitem hw =>
    simp only [List.length_append, List.length_singleton] at hlen
    -- Space and the closing bracket go on with no number.
    have hends : Stops goesOn (w ++ ']' :: rest) := stops_goesOn_gap hw (stops_cons_iff.mpr rfl)
    have hread := h.value hitem (by omega) hends
    simp only [List.append_assoc, List.singleton_append]
    rw [readItems, hread]
    simp [skipSpace_append hw, skipSpace_cons (c := ']') rfl]
  | @next item items t w v u hitem hw hv hitems =>
    simp only [List.length_append, List.length_cons] at hlen
    have hends : Stops goesOn (w ++ ',' :: (v ++ (u ++ rest))) :=
      stops_goesOn_gap hw (stops_cons_iff.mpr rfl)
    have hread := h.value hitem (by omega) hends
    -- The items behind the comma are shorter by the first one at least.
    have hmore := h.items hitems (by omega) rest
    simp only [List.append_assoc, List.cons_append]
    rw [readItems, hread]
    simp [skipSpace_append hw, skipSpace_cons (c := ',') rfl, readItems_gap hv, hmore]

/-- Behind a comma the members go on, and a brace ends them. -/
theorem Reads.readMembers_member {member : JsonText × Json} (h : Reads fuel)
    (ht : SpellsMember member t) (hlen : t.length ≤ fuel + 1) (hrest : Stops goesOn rest) :
    (∀ cs, skipSpace rest = ',' :: cs → readMembers (fuel + 1) (t ++ rest) =
      (readMembers fuel cs).map fun read => (member :: read.1, read.2)) ∧
    ∀ cs, skipSpace rest = '}' :: cs →
      readMembers (fuel + 1) (t ++ rest) = some ([member], cs) := by
  cases ht with
  | @intro name value n w v t hname hw hv hvalue =>
    simp only [List.length_append, List.length_cons] at hlen
    have hread := h.value hvalue (by omega) hrest
    simp only [List.append_assoc, List.cons_append]
    rw [readMembers, skipSpace_cons rfl]
    simp only [readText_eq hname, skipSpace_append hw, skipSpace_cons (c := ':') rfl,
      readValue_gap hv, hread]
    constructor
    · intro cs hcomma
      simp only [hcomma]
    · intro cs hclose
      simp only [hclose]

/-- One more unit of fuel is enough for members. -/
theorem Reads.readMembers_succ (h : Reads fuel) (ht : SpellsMembers members t)
    (hlen : t.length ≤ fuel + 1) (rest : List Char) :
    readMembers (fuel + 1) (t ++ rest) = some (members, rest) := by
  cases ht with
  | @last member t w hmember hw =>
    simp only [List.length_append, List.length_singleton] at hlen
    have hends : Stops goesOn (w ++ '}' :: rest) := stops_goesOn_gap hw (stops_cons_iff.mpr rfl)
    -- Space is skipped in front of the brace.
    have hclose : skipSpace (w ++ '}' :: rest) = '}' :: rest :=
      skipSpace_gap hw (stops_cons_iff.mpr rfl)
    simp only [List.append_assoc, List.singleton_append]
    exact (h.readMembers_member hmember (by omega) hends).2 rest hclose
  | @next member members t w v u hmember hw hv hmembers =>
    simp only [List.length_append, List.length_cons] at hlen
    have hends : Stops goesOn (w ++ ',' :: (v ++ (u ++ rest))) :=
      stops_goesOn_gap hw (stops_cons_iff.mpr rfl)
    have hcomma : skipSpace (w ++ ',' :: (v ++ (u ++ rest))) = ',' :: (v ++ (u ++ rest)) :=
      skipSpace_gap hw (stops_cons_iff.mpr rfl)
    have hmore := h.members hmembers (by omega) rest
    simp only [List.append_assoc, List.cons_append]
    rw [(h.readMembers_member hmember (by omega) hends).1 _ hcomma, readMembers_gap hv, hmore,
      Option.map_some]

/-- **What is spelled is read**, whatever the fuel. -/
theorem reads (fuel : Nat) : Reads fuel := by
  induction fuel with
  -- No token has the empty text, so nothing fits without fuel.
  | zero =>
    refine ⟨fun ht hlen => ?_, fun ht hlen => ?_, fun ht hlen => ?_⟩
    · obtain ⟨c, cs, rfl, -⟩ := ht.exists_cons
      cases hlen
    · obtain ⟨c, cs, rfl, -⟩ := ht.exists_cons
      cases hlen
    · obtain ⟨cs, rfl⟩ := ht.exists_cons
      cases hlen
  | succ fuel ih =>
    exact ⟨fun ht hlen _ hrest => ih.readValue_succ ht hlen hrest, ih.readItems_succ,
      ih.readMembers_succ⟩

/-! ## Layer D: what is read is spelled -/

/-- What is read with this much fuel is spelled by the text. -/
structure Spelled (fuel : Nat) : Prop where
  /-- A document, perhaps with space in front. -/
  value : ∀ {text json rest}, readValue fuel text = some (json, rest) →
    ∃ w t, IsGap w ∧ Spells json t ∧ text = w ++ (t ++ rest)
  /-- Items with the bracket that closes them. -/
  items : ∀ {text items rest}, readItems fuel text = some (items, rest) →
    ∃ w t, IsGap w ∧ SpellsItems items t ∧ text = w ++ (t ++ rest)
  /-- Members with the brace that closes them. -/
  members : ∀ {text members rest}, readMembers fuel text = some (members, rest) →
    ∃ w t, IsGap w ∧ SpellsMembers members t ∧ text = w ++ (t ++ rest)

/-- A document that is read has its parts read with less fuel. -/
theorem Spelled.of_readValue (h : Spelled fuel)
    (hread : readValue (fuel + 1) text = some (json, rest)) :
    ∃ w t, IsGap w ∧ Spells json t ∧ text = w ++ (t ++ rest) := by
  obtain ⟨w, hw, htext⟩ := exists_gap text
  unfold readValue at hread
  rw [htext]
  split at hread
  · -- An object: its brace closes it at once, or members follow.
    next cs heq =>
    obtain ⟨v, hv, hcs⟩ := exists_gap cs
    split at hread
    · next behind hclose =>
      cases hread
      rw [hclose] at hcs
      exact ⟨w, _, hw, .noMembers hv, by simp [heq, hcs]⟩
    · obtain ⟨⟨members, last⟩, hmembers, hjson⟩ := Option.map_eq_some_iff.mp hread
      cases hjson
      obtain ⟨v', t, hv', ht, hbehind⟩ := h.members hmembers
      exact ⟨w, _, hw, .members (hv.append hv') ht, by rw [heq, hcs, hbehind]; simp⟩
  · -- An array, in the same way.
    next cs heq =>
    obtain ⟨v, hv, hcs⟩ := exists_gap cs
    split at hread
    · next behind hclose =>
      cases hread
      rw [hclose] at hcs
      exact ⟨w, _, hw, .noItems hv, by simp [heq, hcs]⟩
    · obtain ⟨⟨items, last⟩, hitems, hjson⟩ := Option.map_eq_some_iff.mp hread
      cases hjson
      obtain ⟨v', t, hv', ht, hbehind⟩ := h.items hitems
      exact ⟨w, _, hw, .items (hv.append hv') ht, by rw [heq, hcs, hbehind]; simp⟩
  · -- A string.
    next cs heq =>
    obtain ⟨⟨units, last⟩, hunits, hjson⟩ := Option.map_eq_some_iff.mp hread
    cases hjson
    obtain ⟨t, ht, hcs⟩ := spells_of_readText hunits
    exact ⟨w, _, hw, .string ht, by rw [heq, hcs]; rfl⟩
  · -- The three words.
    next cs heq =>
    cases hread
    exact ⟨w, _, hw, .boolTrue, by rw [heq]; rfl⟩
  · next cs heq =>
    cases hread
    exact ⟨w, _, hw, .boolFalse, by rw [heq]; rfl⟩
  · next cs heq =>
    cases hread
    exact ⟨w, _, hw, .null, by rw [heq]; rfl⟩
  · -- Anything else has to be a number.
    obtain ⟨⟨n, last⟩, hn, hjson⟩ := Option.map_eq_some_iff.mp hread
    cases hjson
    obtain ⟨t, ht, hbehind⟩ := spells_of_readNumber hn
    exact ⟨w, t, hw, .number ht, by rw [hbehind]⟩

/-- Items that are read have their parts read with less fuel. -/
theorem Spelled.of_readItems (h : Spelled fuel)
    (hread : readItems (fuel + 1) text = some (items, rest)) :
    ∃ w t, IsGap w ∧ SpellsItems items t ∧ text = w ++ (t ++ rest) := by
  unfold readItems at hread
  split at hread
  · cases hread
  · next item behind hitem =>
    obtain ⟨w, t, hw, ht, rfl⟩ := h.value hitem
    obtain ⟨v, hv, hbehind⟩ := exists_gap behind
    split at hread
    · -- Behind a comma there are more items.
      next cs hcomma =>
      obtain ⟨⟨more, last⟩, hmore, heq⟩ := Option.map_eq_some_iff.mp hread
      cases heq
      obtain ⟨v', u, hv', hu, hcs⟩ := h.items hmore
      exact ⟨w, _, hw, .next ht hv hv' hu, by rw [hbehind, hcomma, hcs]; simp⟩
    · next cs hclose =>
      cases hread
      exact ⟨w, _, hw, .last ht hv, by rw [hbehind, hclose]; simp⟩
    · cases hread

/-- What members start with is one member, and a comma or a brace behind it. -/
theorem Spelled.of_readMember (h : Spelled fuel)
    (hread : readMembers (fuel + 1) text = some (members, rest)) :
    ∃ w member t last, IsGap w ∧ SpellsMember member t ∧ text = w ++ (t ++ last) ∧
      ((∃ cs more, skipSpace last = ',' :: cs ∧ readMembers fuel cs = some (more, rest) ∧
          members = member :: more) ∨
        skipSpace last = '}' :: rest ∧ members = [member]) := by
  obtain ⟨w, hw, htext⟩ := exists_gap text
  unfold readMembers at hread
  split at hread
  case h_2 => cases hread
  next cs hquote =>
  split at hread
  case h_1 => cases hread
  next name behind hname =>
  split at hread
  case h_2 => cases hread
  next after hcolon =>
  split at hread
  case h_1 => cases hread
  next value last hvalue =>
  -- The four pieces of a member, in their order: name, space, space, value.
  obtain ⟨n, hn, hcs⟩ := spells_of_readText hname
  obtain ⟨v, hv, hbehind⟩ := exists_gap behind
  obtain ⟨x, t, hx, ht, hafter⟩ := h.value hvalue
  refine ⟨w, (name, value), _, last, hw, .intro hn hv hx ht, ?_, ?_⟩
  · rw [htext, hquote, hcs, hbehind, hcolon, hafter]
    simp
  · split at hread
    · -- What follows decides whether there are more members.
      next cs' hcomma =>
      obtain ⟨⟨more, final⟩, hmore, heq⟩ := Option.map_eq_some_iff.mp hread
      cases heq
      exact .inl ⟨cs', more, hcomma, hmore, rfl⟩
    · next cs' hclose =>
      cases hread
      exact .inr ⟨hclose, rfl⟩
    · cases hread

/-- Members that are read have their parts read with less fuel. -/
theorem Spelled.of_readMembers (h : Spelled fuel)
    (hread : readMembers (fuel + 1) text = some (members, rest)) :
    ∃ w t, IsGap w ∧ SpellsMembers members t ∧ text = w ++ (t ++ rest) := by
  obtain ⟨w, member, t, last, hw, ht, rfl, hlast⟩ := h.of_readMember hread
  obtain ⟨v, hv, hbehind⟩ := exists_gap last
  rcases hlast with ⟨cs, more, hcomma, hmore, rfl⟩ | ⟨hclose, rfl⟩
  · obtain ⟨v', u, hv', hu, hcs⟩ := h.members hmore
    exact ⟨w, _, hw, .next ht hv hv' hu, by rw [hbehind, hcomma, hcs]; simp⟩
  · exact ⟨w, _, hw, .last ht hv, by rw [hbehind, hclose]; simp⟩

/-- **What is read is spelled**, whatever the fuel. -/
theorem spelled (fuel : Nat) : Spelled fuel := by
  induction fuel with
  | zero => exact ⟨nofun, nofun, nofun⟩
  | succ fuel ih => exact ⟨ih.of_readValue, ih.of_readItems, ih.of_readMembers⟩

/-! ## Main result -/

/-- **The reader reads the documents that are spelled**, and it reads each as what it spells. -/
theorem parse?_eq_some_iff {text : String} : parse? text = some json ↔ IsDocument text json := by
  constructor
  · intro h
    unfold parse? at h
    split at h
    · next json' rest hread =>
      simp only [Option.ite_none_right_eq_some, Option.some.injEq] at h
      obtain ⟨hrest, rfl⟩ := h
      obtain ⟨w, t, hw, ht, htext⟩ := (spelled _).value hread
      obtain ⟨v, hv, hbehind⟩ := exists_gap rest
      rw [hrest, List.append_nil] at hbehind
      exact ⟨w, t, v, hw, ht, hv, hbehind ▸ htext⟩
    · cases h
  · rintro ⟨w, t, v, hw, ht, hv, htext⟩
    -- The fuel is more than the text is long, and a document is a part of the text.
    have hlen : t.length ≤ 2 * text.toList.length + 2 := by
      rw [htext]
      simp only [List.length_append]
      omega
    -- Behind the document there is only space, so no number goes on.
    have hends : Stops goesOn v := by
      simpa using stops_goesOn_gap hv (stops_nil goesOn)
    have hread := (reads _).value ht hlen hends
    have hspace : skipSpace v = [] := by
      simpa using skipSpace_gap hv (stops_nil isSpace)
    rw [← readValue_gap hw, ← htext] at hread
    simp only [parse?, hread, hspace, if_true]

end Interpolation.Json
