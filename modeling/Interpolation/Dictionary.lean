/-!
# Dictionaries

A dictionary lists its entries by ascending key, in the order of code points.  Both operations find
the place of a key by the keys in front of it, so their laws hold of every list of entries; none
needs the keys to be in order.

## Main definitions

* `Dictionary.get?`, `Dictionary.insert`: the value of a key.
* `Dictionary.ofList`: the dictionary of a list of entries, where a later entry wins.

## Main statements

* `get?_insert_self`, `get?_insert_of_ne`: what is read after a write.
* `insert_insert_self`, `insert_eq_self`, `insert_comm`: when writes absorb each other, change
  nothing, and commute.
-/

namespace Interpolation

/-- Entries by ascending key. -/
abbrev Dictionary (α : Type) := List (String × α)

namespace Dictionary

variable {α : Type}

/-- The value of a key, if it has one; keys behind its place are not looked at. -/
def get? (key : String) : Dictionary α → Option α
  | [] => none
  | (k, v) :: entries =>
    if key < k then none else if key = k then some v else get? key entries

/-- The dictionary with the given value of a key, in place of an earlier one. -/
def insert (key : String) (value : α) : Dictionary α → Dictionary α
  | [] => [(key, value)]
  | (k, v) :: entries =>
    if key < k then (key, value) :: (k, v) :: entries
    else if key = k then (key, value) :: entries
    else (k, v) :: insert key value entries

/-- The dictionary of the given entries; of two entries with one key the later one counts. -/
def ofList (entries : List (String × α)) : Dictionary α :=
  entries.foldl (fun dictionary entry => insert entry.1 entry.2 dictionary) []

@[simp] theorem get?_nil (key : String) : get? key ([] : Dictionary α) = none := rfl

theorem get?_cons (key k : String) (v : α) (entries : Dictionary α) :
    get? key ((k, v) :: entries)
      = if key < k then none else if key = k then some v else get? key entries := rfl

theorem insert_cons (key k : String) (value v : α) (entries : Dictionary α) :
    insert key value ((k, v) :: entries)
      = if key < k then (key, value) :: (k, v) :: entries
        else if key = k then (key, value) :: entries
        else (k, v) :: insert key value entries := rfl

theorem lt_or_gt_of_ne {k l : String} (h : k ≠ l) : k < l ∨ l < k := by
  rcases Std.lt_trichotomy k l with hlt | heq | hgt
  · exact .inl hlt
  · exact absurd heq h
  · exact .inr hgt

/-- What is written is read. -/
@[simp] theorem get?_insert_self (key : String) (value : α) (entries : Dictionary α) :
    get? key (insert key value entries) = some value := by
  induction entries with
  | nil => simp [insert, get?_cons]
  | cons entry entries ih =>
    obtain ⟨k, v⟩ := entry
    rw [insert_cons]
    split
    · simp [get?_cons]
    · split
      · simp [get?_cons]
      · simp [get?_cons, *]

/-- A write is seen at its own key only. -/
theorem get?_insert_of_ne {key other : String} (h : other ≠ key) (value : α)
    (entries : Dictionary α) : get? other (insert key value entries) = get? other entries := by
  induction entries with
  | nil => simp [insert, get?_cons, h]
  | cons entry entries ih =>
    obtain ⟨k, v⟩ := entry
    rw [insert_cons]
    split
    · next hlt =>
      rw [get?_cons]
      split
      · -- The other key is even smaller, so it has no value in either dictionary.
        next hother => rw [get?_cons, if_pos (String.lt_trans hother hlt)]
      · simp
    · split
      · next heq => subst heq; simp [get?_cons, h]
      · simp [get?_cons, ih]

/-- A second write to a key takes the place of the first. -/
@[simp] theorem insert_insert_self (key : String) (value value' : α) (entries : Dictionary α) :
    insert key value (insert key value' entries) = insert key value entries := by
  induction entries with
  | nil => simp [insert]
  | cons entry entries ih =>
    obtain ⟨k, v⟩ := entry
    simp only [insert_cons]
    split
    · simp [insert_cons]
    · split
      · simp [insert_cons]
      · simp [insert_cons, *]

/-- Writing what is there changes nothing. -/
theorem insert_eq_self {key : String} {value : α} {entries : Dictionary α}
    (h : get? key entries = some value) : insert key value entries = entries := by
  induction entries with
  | nil => simp at h
  | cons entry entries ih =>
    obtain ⟨k, v⟩ := entry
    rw [get?_cons] at h
    rw [insert_cons]
    split
    · simp [*] at h
    · split
      · simp_all
      · rw [ih (by simpa [*] using h)]

/-- Writes to different keys commute. -/
theorem insert_comm {key key' : String} (h : key ≠ key') (value value' : α)
    (entries : Dictionary α) :
    insert key value (insert key' value' entries)
      = insert key' value' (insert key value entries) := by
  induction entries with
  | nil =>
    rcases lt_or_gt_of_ne h with hlt | hgt
    · simp [insert, hlt, h.symm, String.lt_asymm hlt]
    · simp [insert, hgt, h, String.lt_asymm hgt]
  | cons entry entries ih =>
    obtain ⟨k, v⟩ := entry
    have htrans := @String.lt_trans
    have hasymm := @String.lt_asymm
    -- Where the first entry stands relative to both keys is a matter of the order alone.
    rcases lt_or_gt_of_ne h with hlt | hgt <;> simp only [insert_cons] <;> grind [insert_cons]

end Dictionary

end Interpolation
