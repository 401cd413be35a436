import Interpolation.Proofs.Assignment

/-!
# Reading and assigning through a path

Reading takes what is missing for no value and goes on; assigning creates the last entry and stops
at any other that is missing.  Still, a path can be read exactly where it can be assigned: no value
has no parts, so a read that has gone on from a missing entry fails at the next step, which is where
the assignment has stopped.  What was assigned is read, a second assignment takes the place of the
first, and assigning what is there changes nothing.

## Main definitions

- `Accessor.slot`: which part a step selects, however it is written.
- `Value.suits`: a step that can be taken from a kind of values.
- `Value.Leads`, `Path.Leads`: some steps lead to a part that is present.

## Main results

- `Value.exists_read_iff`, `Path.exists_read_iff`: what can be read is what can be assigned.
- `Path.read_assign`, `Path.assign_assign`, `Path.assign_eq_self`: reading and assigning as the two
  sides of a lens.
- `missingLast`, `undefinedRoot`, `missingBetween`, `unsuitableStep`, `indexOutOfRange`: the cases
  in which a path ends or stops, read and assigned.
- `readable_iff_assignable`, `lens_laws`: the same of expressions.
-/

namespace Interpolation

/-- The entry of a map or the item of a list that a step selects.  Both ways to name an entry select
the same one. -/
def Accessor.slot : Accessor → String ⊕ Nat
  | .property name | .key name => .inl name
  | .index i => .inr i

namespace Value

variable {value part new : Value} {part? : Option Value} {a b : Accessor}
  {accessors : List Accessor} {entries : List (String × Value)} {items : List Value}
  {name : String} {i : Nat} {e : AccessError}

/-! ## Layer A: one step -/

theorem child_map (h : a.slot = .inl name) :
    (map entries).child a = .ok (Dictionary.get? name entries) := by
  cases a <;> cases h <;> rfl

theorem setChild_map (h : a.slot = .inl name) :
    (map entries).setChild a part = map (Dictionary.insert name part entries) := by
  cases a <;> cases h <;> rfl

/-- A number selects an item of a list, if there are enough of them. -/
theorem child_list (h : a.slot = .inr i) :
    (list items).child a =
      match items[i]? with
      | some item => .ok (some item)
      | none => .error (.outOfBounds i items.length) := by
  cases a <;> cases h
  rfl

theorem setChild_list (h : a.slot = .inr i) :
    (list items).setChild a part = list (items.set i part) := by
  cases a <;> cases h
  rfl

/-- Entries are selected from maps, items from lists. -/
def suits : Value → Accessor → Bool
  | map _, .property _ | map _, .key _ | list _, .index _ => true
  | _, _ => false

/-- Steps are taken from maps and from lists only. -/
theorem exists_of_suits (h : value.suits a = true) :
    (∃ entries name, value = map entries ∧ a.slot = .inl name) ∨
      ∃ items i, value = list items ∧ a.slot = .inr i := by
  cases value with
  | map entries =>
    cases a with
    | property name => exact .inl ⟨entries, name, rfl, rfl⟩
    | key name => exact .inl ⟨entries, name, rfl, rfl⟩
    | index i => cases h
  | list items =>
    cases a with
    | index i => exact .inr ⟨items, i, rfl, rfl⟩
    | property name => cases h
    | key name => cases h
  | nil => cases h
  | bool b => cases h
  | number x => cases h
  | string s => cases h

theorem child_of_not_suits (h : value.suits a = false) :
    value.child a = .error (.unsuitable a value.typeName) := by
  cases value <;> cases a <;> simp_all [suits, child]

/-- A step is taken into an entry of a map, which may be missing, or into an item of a list. -/
theorem child_eq_ok (h : value.child a = .ok part?) :
    (∃ entries name, value = map entries ∧ a.slot = .inl name ∧
      part? = Dictionary.get? name entries) ∨
    ∃ items i item, value = list items ∧ a.slot = .inr i ∧ items[i]? = some item ∧
      part? = some item := by
  -- The step suits the value, or it would have failed.
  cases hsuits : value.suits a with
  | false =>
    rw [child_of_not_suits hsuits] at h
    cases h
  | true =>
    rcases exists_of_suits hsuits with ⟨entries, name, rfl, hname⟩ | ⟨items, i, rfl, hi⟩
    · rw [child_map hname] at h
      exact .inl ⟨entries, name, rfl, hname, (Except.ok.inj h).symm⟩
    · rw [child_list hi] at h
      cases hitem : items[i]? with
      -- An item that is missing is a failure.
      | none =>
        rw [hitem] at h
        cases h
      | some item =>
        rw [hitem] at h
        exact .inr ⟨items, i, item, rfl, hi, hitem, (Except.ok.inj h).symm⟩

theorem child_of_slot (h : value.child a = .ok part?) (hslot : a.slot = b.slot) :
    value.child b = .ok part? := by
  rcases child_eq_ok h with ⟨entries, name, rfl, hname, rfl⟩ | ⟨items, i, item, rfl, hi, hitem, rfl⟩
  · exact child_map (hslot.symm.trans hname)
  · rw [child_list (hslot.symm.trans hi), hitem]

/-- A part that is put into its place stands there. -/
theorem child_setChild (h : value.child a = .ok part?) (hslot : a.slot = b.slot) (new : Value) :
    (value.setChild a new).child b = .ok (some new) := by
  rcases child_eq_ok h with ⟨entries, name, rfl, hname, -⟩ | ⟨items, i, item, rfl, hi, hitem, -⟩
  · rw [setChild_map hname, child_map (hslot.symm.trans hname), Dictionary.get?_insert_self]
  · have hlength : i < items.length := (List.getElem?_eq_some_iff.mp hitem).1
    rw [setChild_list hi, child_list (hslot.symm.trans hi), List.getElem?_set_self hlength]

/-- A part takes the place of one that was put there before. -/
theorem setChild_setChild (h : value.child a = .ok part?) (hslot : a.slot = b.slot)
    (new newer : Value) :
    (value.setChild a new).setChild b newer = value.setChild b newer := by
  -- Entries by the laws of dictionaries, items by those of lists.
  rcases child_eq_ok h with ⟨entries, name, rfl, hname, -⟩ | ⟨items, i, item, rfl, hi, -, -⟩
  · have hname' := hslot.symm.trans hname
    rw [setChild_map hname, setChild_map hname', setChild_map hname', Dictionary.insert_insert_self]
  · have hi' := hslot.symm.trans hi
    rw [setChild_list hi, setChild_list hi', setChild_list hi', List.set_set]

theorem child_nil (a : Accessor) : nil.child a = .error (.unsuitable a nil.typeName) :=
  child_of_not_suits rfl

/-! ## Layer B: what can be read can be assigned -/

theorem read_nil (value : Value) : value.read [] = .ok value := by
  rw [read]

theorem read_of_child_error (h : value.child a = .error e) (accessors : List Accessor) :
    value.read (a :: accessors) = .error e := by
  rw [read, h]

theorem read_of_child_ok (h : value.child a = .ok part?) (accessors : List Accessor) :
    value.read (a :: accessors) = (part?.getD nil).read accessors := by
  rw [read, h]

theorem exists_read_nil_iff : (∃ x, nil.read accessors = .ok x) ↔ accessors = [] := by
  cases accessors with
  | nil => simp [read_nil]
  | cons a accessors => simp [read_of_child_error (child_nil a)]

/-- Some steps can be read exactly if they can be assigned, whatever is assigned. -/
theorem exists_read_iff (value : Value) (accessors : List Accessor) (new : Value) :
    (∃ x, value.read accessors = .ok x) ↔ (value.assign accessors new).1 = .ok () := by
  induction accessors generalizing value with
  | nil => simp [read_nil, assign_nil]
  | cons a accessors ih =>
    cases hchild : value.child a with
    | error e => simp [read_of_child_error hchild, assign_of_child_error hchild]
    | ok part? =>
      rw [read_of_child_ok hchild]
      cases part? with
      | none =>
        -- The assignment stops at a missing entry, the read at the step behind it.
        rw [assign_of_child_none hchild]
        by_cases hlast : accessors = []
        · simp [hlast, read_nil]
        · simp [hlast, exists_read_nil_iff]
      | some part =>
        rw [assign_of_child_some hchild]
        exact ih part

/-! ## Layer C: reading what was assigned -/

/-- What is assigned is read. -/
theorem read_assign (h : (value.assign accessors new).1 = .ok ()) :
    (value.assign accessors new).2.read accessors = .ok new := by
  induction accessors generalizing value with
  | nil => rw [assign_nil, read_nil]
  | cons a accessors ih =>
    cases hchild : value.child a with
    | error e =>
      rw [assign_of_child_error hchild] at h
      cases h
    | ok part? =>
      cases part? with
      | none =>
        rw [assign_of_child_none hchild] at h ⊢
        by_cases hlast : accessors = []
        · -- The entry has been created by the assignment.
          subst hlast
          rw [if_pos rfl, read_of_child_ok (child_setChild hchild rfl new)]
          exact read_nil new
        · simp [hlast] at h
      | some part =>
        rw [assign_of_child_some hchild] at h ⊢
        -- The part that has been assigned stands where it was taken from.
        rw [read_of_child_ok (child_setChild hchild rfl _)]
        exact ih h

/-- A second assignment takes the place of the first. -/
theorem assign_assign (h : (value.assign accessors new).1 = .ok ()) (newer : Value) :
    (value.assign accessors new).2.assign accessors newer = value.assign accessors newer := by
  induction accessors generalizing value with
  | nil => rw [assign_nil, assign_nil]
  | cons a accessors ih =>
    cases hchild : value.child a with
    | error e =>
      rw [assign_of_child_error hchild] at h
      cases h
    | ok part? =>
      cases part? with
      | none =>
        rw [assign_of_child_none hchild] at h
        by_cases hlast : accessors = []
        · -- Now the entry is there, and it is replaced.
          subst hlast
          rw [assign_of_child_none hchild, assign_of_child_none hchild, if_pos rfl, if_pos rfl,
            assign_of_child_some (child_setChild hchild rfl new), assign_nil,
            setChild_setChild hchild rfl]
        · simp [hlast] at h
      | some part =>
        rw [assign_of_child_some hchild] at h
        rw [assign_of_child_some hchild, assign_of_child_some hchild,
          assign_of_child_some (child_setChild hchild rfl _), ih h, setChild_setChild hchild rfl]

/-! ## Layer D: assigning what is there -/

/-- Some steps lead to a part of a value: each of them into an entry or an item that is present. -/
inductive Leads : Value → List Accessor → Value → Prop where
  /-- Without a step the part is the value itself. -/
  | here (x : Value) : Leads x [] x
  /-- An entry of a map, by its name. -/
  | property {entries name part accessors x} :
      Dictionary.get? name entries = some part → Leads part accessors x →
      Leads (map entries) (.property name :: accessors) x
  /-- An entry of a map, by any text. -/
  | key {entries name part accessors x} :
      Dictionary.get? name entries = some part → Leads part accessors x →
      Leads (map entries) (.key name :: accessors) x
  /-- An item of a list. -/
  | index {items i part accessors x} :
      items[i]? = some part → Leads part accessors x →
      Leads (list items) (.index i :: accessors) x

/-- Where there is a part, it is read. -/
theorem Leads.read {x : Value} (h : value.Leads accessors x) : value.read accessors = .ok x := by
  -- Along the steps; each of them finds its part.
  induction h with
  | here x => exact read_nil x
  | property hpart _ ih => rw [read_of_child_ok (child_map rfl), hpart]; exact ih
  | key hpart _ ih => rw [read_of_child_ok (child_map rfl), hpart]; exact ih
  | index hpart _ ih => rw [read_of_child_ok (by rw [child_list rfl, hpart])]; exact ih

theorem assign_cons_eq_self {x : Value} (hchild : value.child a = .ok (some part))
    (h : part.assign accessors x = (.ok (), part)) :
    value.assign (a :: accessors) x = (.ok (), value) := by
  rw [assign_of_child_some hchild, h, setChild_eq_self hchild]

/-- Assigning what is there changes nothing. -/
theorem Leads.assign {x : Value} (h : value.Leads accessors x) :
    value.assign accessors x = (.ok (), value) := by
  induction h with
  | here x => exact assign_nil x x
  | property hpart _ ih => exact assign_cons_eq_self (by rw [child_map rfl, hpart]) ih
  | key hpart _ ih => exact assign_cons_eq_self (by rw [child_map rfl, hpart]) ih
  | index hpart _ ih => exact assign_cons_eq_self (by rw [child_list rfl, hpart]) ih

/-- Reading goes on from where some steps lead. -/
theorem Leads.read_append {x : Value} (h : value.Leads accessors x) (behind : List Accessor) :
    value.read (accessors ++ behind) = x.read behind := by
  induction h with
  | here x => rfl
  | property hpart _ ih => rw [List.cons_append, read_of_child_ok (child_map rfl), hpart]; exact ih
  | key hpart _ ih => rw [List.cons_append, read_of_child_ok (child_map rfl), hpart]; exact ih
  | index hpart _ ih =>
    rw [List.cons_append, read_of_child_ok (by rw [child_list rfl, hpart])]
    exact ih

/-- An assignment goes on from where some steps lead, and ends as it ends from there. -/
theorem Leads.assign_append {x : Value} (h : value.Leads accessors x) (behind : List Accessor)
    (new : Value) : (value.assign (accessors ++ behind) new).1 = (x.assign behind new).1 := by
  induction h with
  | here x => rfl
  | property hpart _ ih =>
    rw [List.cons_append, assign_of_child_some (by rw [child_map rfl, hpart])]
    exact ih
  | key hpart _ ih =>
    rw [List.cons_append, assign_of_child_some (by rw [child_map rfl, hpart])]
    exact ih
  | index hpart _ ih =>
    rw [List.cons_append, assign_of_child_some (by rw [child_list rfl, hpart])]
    exact ih

end Value

/-! ## Layer E: scopes -/

namespace Scope

theorem get?_set_self (scope : Scope) (name : String) (value : Value) :
    (scope.set name value).get? name = some value :=
  Dictionary.get?_insert_self name value scope.entries

theorem set_set (scope : Scope) (name : String) (value newer : Value) :
    (scope.set name value).set name newer = scope.set name newer :=
  congrArg Scope.mk (Dictionary.insert_insert_self name newer value scope.entries)

end Scope

namespace Path

variable {path : Path} {scope : Scope} {new : Value}

theorem read_of_undefined {root : String} (h : scope.get? root = none)
    (accessors : List Accessor) :
    (Path.mk root accessors).read scope = Value.nil.read accessors := by
  rw [read, h, Option.getD_none]

theorem read_of_defined {root : String} {value : Value} (h : scope.get? root = some value)
    (accessors : List Accessor) : (Path.mk root accessors).read scope = value.read accessors := by
  rw [read, h, Option.getD_some]

/-- The path that is a variable takes the value of the variable for the part to be replaced. -/
theorem assign_of_present {root : String} {value : Value} (h : scope.get? root = some value)
    (accessors : List Accessor) (new : Value) :
    (Path.mk root accessors).assign new scope =
      ((value.assign accessors new).1, scope.set root (value.assign accessors new).2) := by
  cases accessors with
  | nil => rw [assign_variable, Value.assign_nil]
  | cons a accessors => exact assign_of_defined h a accessors new

/-- A path can be read exactly if it can be assigned, whatever is assigned. -/
theorem exists_read_iff (path : Path) (scope : Scope) (new : Value) :
    (∃ x, path.read scope = .ok x) ↔ (path.assign new scope).1 = .ok () := by
  obtain ⟨root, accessors⟩ := path
  cases accessors with
  | nil => simp [read, Value.read_nil, assign_variable]
  | cons a accessors =>
    cases hroot : scope.get? root with
    | none => simp [read_of_undefined hroot, assign_of_undefined hroot, Value.exists_read_nil_iff]
    | some value =>
      rw [read_of_defined hroot, assign_of_defined hroot]
      exact Value.exists_read_iff value (a :: accessors) new

/-- What is assigned is read. -/
theorem read_assign (h : (path.assign new scope).1 = .ok ()) :
    path.read (path.assign new scope).2 = .ok new := by
  obtain ⟨root, accessors⟩ := path
  cases accessors with
  | nil =>
    rw [assign_variable, read_of_defined (scope.get?_set_self root new), Value.read_nil]
  | cons a accessors =>
    cases hroot : scope.get? root with
    | none =>
      rw [assign_of_undefined hroot] at h
      cases h
    | some value =>
      rw [assign_of_defined hroot] at h ⊢
      rw [read_of_defined (scope.get?_set_self root _)]
      exact Value.read_assign h

/-- A second assignment takes the place of the first. -/
theorem assign_assign (h : (path.assign new scope).1 = .ok ()) (newer : Value) :
    path.assign newer (path.assign new scope).2 = path.assign newer scope := by
  obtain ⟨root, accessors⟩ := path
  cases accessors with
  | nil => rw [assign_variable, assign_variable, assign_variable, Scope.set_set]
  | cons a accessors =>
    cases hroot : scope.get? root with
    | none =>
      rw [assign_of_undefined hroot] at h
      cases h
    | some value =>
      rw [assign_of_defined hroot] at h
      rw [assign_of_defined hroot, assign_of_defined hroot,
        assign_of_defined (scope.get?_set_self root _), Value.assign_assign h, Scope.set_set]

theorem assign_ok_congr (h : (path.assign new scope).1 = .ok ()) (newer : Value) :
    (path.assign newer scope).1 = .ok () :=
  (path.exists_read_iff scope newer).mp ((path.exists_read_iff scope new).mpr h)

/-- A path leads to a value: its variable is defined, and each of its steps leads into an entry or
an item that is present. -/
def Leads (path : Path) (scope : Scope) (x : Value) : Prop :=
  ∃ value, scope.get? path.root = some value ∧ value.Leads path.accessors x

theorem Leads.read {x : Value} (h : path.Leads scope x) : path.read scope = .ok x := by
  obtain ⟨value, hroot, hleads⟩ := h
  exact (read_of_defined hroot path.accessors).trans hleads.read

/-- Assigning what is there changes nothing. -/
theorem Leads.assign {x : Value} (h : path.Leads scope x) :
    path.assign x scope = (.ok (), scope) := by
  obtain ⟨value, hroot, hleads⟩ := h
  refine (assign_of_present hroot path.accessors x).trans ?_
  rw [hleads.assign, set_eq_self hroot]

/-- Reading goes on from where a path leads. -/
theorem Leads.read_append {root : String} {accessors : List Accessor} {x : Value}
    (h : Leads ⟨root, accessors⟩ scope x) (behind : List Accessor) :
    (Path.mk root (accessors ++ behind)).read scope = x.read behind := by
  obtain ⟨value, hroot, hleads⟩ := h
  exact (read_of_defined hroot _).trans (hleads.read_append behind)

/-- An assignment goes on from where a path leads. -/
theorem Leads.assign_append {root : String} {accessors : List Accessor} {x : Value}
    (h : Leads ⟨root, accessors⟩ scope x) (behind : List Accessor) (new : Value) :
    ((Path.mk root (accessors ++ behind)).assign new scope).1 = (x.assign behind new).1 := by
  obtain ⟨value, hroot, hleads⟩ := h
  rw [assign_of_present hroot]
  exact hleads.assign_append behind new

end Path

/-! ## Layer F: expressions -/

namespace Expression

open Evaluable (value assign)

variable {scope scope' : Scope} {new : Value}

theorem mapError_eq_ok_iff {α : Type} {outcome : Except AccessError α} {a : α} :
    outcome.mapError AccessError.toError = .ok a ↔ outcome = .ok a := by
  cases outcome with
  | ok b =>
    show (Except.ok b : Except Error α) = .ok a ↔ _
    rw [Except.ok.injEq, Except.ok.injEq]
  | error e => exact ⟨nofun, nofun⟩

theorem value_eq_ok_iff {source : String} {path : Path} {x : Value} :
    value (⟨source, .path path⟩ : Expression) scope = .ok x ↔ path.read scope = .ok x :=
  mapError_eq_ok_iff

theorem assign_eq_ok_iff {source : String} {path : Path} :
    assign (⟨source, .path path⟩ : Expression) new scope = (.ok (), scope') ↔
      path.assign new scope = (.ok (), scope') := by
  rw [assign_path, Prod.mk.injEq, mapError_eq_ok_iff, ← Prod.mk.injEq]

section Cases

variable {source root : String} {accessors behind : List Accessor} {a b : Accessor} {x : Value}
  {entries : List (String × Value)} {items : List Value} {name : String} {i : Nat}

/-- What stops a path is what the expression fails with, and the scope is as it was. -/
theorem fails_of_stopped {path : Path} {stopped stopped' : AccessError} (source : String)
    (hread : path.read scope = .error stopped)
    (hassign : (path.assign new scope).1 = .error stopped') :
    value (⟨source, .path path⟩ : Expression) scope = .error stopped.toError ∧
      assign (⟨source, .path path⟩ : Expression) new scope = (.error stopped'.toError, scope) := by
  constructor
  · exact congrArg (·.mapError AccessError.toError) hread
  · rw [assign_path, hassign, Path.assign_unchanged hassign]
    rfl

/-- **A missing last entry** reads as no value, and an assignment creates it. -/
theorem missingLast (h : Path.Leads ⟨root, accessors⟩ scope (.map entries))
    (ha : a.slot = .inl name) (hmissing : Dictionary.get? name entries = none) (source : String)
    (new : Value) :
    value (⟨source, .path ⟨root, accessors ++ [a]⟩⟩ : Expression) scope = .ok .nil ∧
      ∃ scope', assign (⟨source, .path ⟨root, accessors ++ [a]⟩⟩ : Expression) new scope =
          (.ok (), scope') ∧
        value (⟨source, .path ⟨root, accessors ++ [a]⟩⟩ : Expression) scope' = .ok new := by
  have hchild : (Value.map entries).child a = .ok none := by
    rw [Value.child_map ha, hmissing]
  have hread : (Path.mk root (accessors ++ [a])).read scope = .ok .nil := by
    rw [h.read_append, Value.read_of_child_ok hchild]
    exact Value.read_nil .nil
  have hassign : ((Path.mk root (accessors ++ [a])).assign new scope).1 = .ok () := by
    rw [h.assign_append, Value.assign_of_child_none hchild, if_pos rfl]
  -- The scope is whatever the assignment leaves.
  refine ⟨value_eq_ok_iff.mpr hread, _, assign_eq_ok_iff.mpr (Prod.ext hassign rfl), ?_⟩
  exact value_eq_ok_iff.mpr (Path.read_assign hassign)

/-- **Below a variable that is not defined** nothing is read and nothing assigned. -/
theorem undefinedRoot (h : scope.get? root = none) (source : String) (a : Accessor)
    (behind : List Accessor) (new : Value) :
    value (⟨source, .path ⟨root, a :: behind⟩⟩ : Expression) scope =
        .error (AccessError.unsuitable a "Nil").toError ∧
      assign (⟨source, .path ⟨root, a :: behind⟩⟩ : Expression) new scope =
        (.error (AccessError.undefinedVariable root).toError, scope) := by
  apply fails_of_stopped
  · rw [Path.read_of_undefined h]
    exact Value.read_of_child_error (Value.child_nil a) behind
  · rw [Path.assign_of_undefined h]

/-- **Below an entry that is missing** nothing is read and nothing assigned. -/
theorem missingBetween (h : Path.Leads ⟨root, accessors⟩ scope (.map entries))
    (ha : a.slot = .inl name) (hmissing : Dictionary.get? name entries = none) (source : String)
    (b : Accessor) (behind : List Accessor) (new : Value) :
    value (⟨source, .path ⟨root, accessors ++ a :: b :: behind⟩⟩ : Expression) scope =
        .error (AccessError.unsuitable b "Nil").toError ∧
      assign (⟨source, .path ⟨root, accessors ++ a :: b :: behind⟩⟩ : Expression) new scope =
        (.error (AccessError.missingEntry name).toError, scope) := by
  have hchild : (Value.map entries).child a = .ok none := by
    rw [Value.child_map ha, hmissing]
  have hname : a.name = name := by
    cases a <;> cases ha <;> rfl
  apply fails_of_stopped
  · rw [h.read_append, Value.read_of_child_ok hchild]
    exact Value.read_of_child_error (Value.child_nil b) behind
  · rw [h.assign_append, Value.assign_of_child_none hchild, if_neg (List.cons_ne_nil _ _), hname]

/-- **From a value without such parts** no step is taken, neither to read nor to assign: neither
from one that has no parts at all, nor by a number from a map or by a name from a list. -/
theorem unsuitableStep (h : Path.Leads ⟨root, accessors⟩ scope x) (ha : x.suits a = false)
    (source : String) (behind : List Accessor) (new : Value) :
    value (⟨source, .path ⟨root, accessors ++ a :: behind⟩⟩ : Expression) scope =
        .error (AccessError.unsuitable a x.typeName).toError ∧
      assign (⟨source, .path ⟨root, accessors ++ a :: behind⟩⟩ : Expression) new scope =
        (.error (AccessError.unsuitable a x.typeName).toError, scope) := by
  -- Reading and assigning are stopped by the same step.
  apply fails_of_stopped
  · rw [h.read_append, Value.read_of_child_error (Value.child_of_not_suits ha)]
  · rw [h.assign_append, Value.assign_of_child_error (Value.child_of_not_suits ha)]

/-- **Behind the last item of a list** nothing is read and nothing assigned. -/
theorem indexOutOfRange (h : Path.Leads ⟨root, accessors⟩ scope (.list items))
    (hi : items.length ≤ i) (source : String) (behind : List Accessor) (new : Value) :
    value (⟨source, .path ⟨root, accessors ++ .index i :: behind⟩⟩ : Expression) scope =
        .error (AccessError.outOfBounds i items.length).toError ∧
      assign (⟨source, .path ⟨root, accessors ++ .index i :: behind⟩⟩ : Expression) new scope =
        (.error (AccessError.outOfBounds i items.length).toError, scope) := by
  have hchild : (Value.list items).child (.index i) = .error (.outOfBounds i items.length) := by
    rw [Value.child_list rfl, List.getElem?_eq_none hi]
  apply fails_of_stopped
  · rw [h.read_append, Value.read_of_child_error hchild]
  · rw [h.assign_append, Value.assign_of_child_error hchild]

end Cases

end Expression

open Evaluable (value assign)

/-- **A path is readable exactly where it is assignable**, whatever is assigned. -/
theorem readable_iff_assignable (source : String) (path : Path) (scope : Scope) (new : Value) :
    (∃ x, value (⟨source, .path path⟩ : Expression) scope = .ok x) ↔
      ∃ scope', assign (⟨source, .path path⟩ : Expression) new scope = (.ok (), scope') := by
  simp only [Expression.value_eq_ok_iff, Expression.assign_eq_ok_iff]
  rw [path.exists_read_iff scope new]
  rcases path.assign new scope with ⟨outcome, after⟩
  simp

/-- **Reading and assigning through a path form a lens.**  What was assigned is read; a second
assignment is as if the first had not been; and assigning what is there changes nothing. -/
theorem lens_laws (source : String) (path : Path) (scope : Scope) (new newer : Value) :
    (∀ scope', assign (⟨source, .path path⟩ : Expression) new scope = (.ok (), scope') →
      value (⟨source, .path path⟩ : Expression) scope' = .ok new ∧
      ∃ last, assign (⟨source, .path path⟩ : Expression) newer scope' = (.ok (), last) ∧
        assign (⟨source, .path path⟩ : Expression) newer scope = (.ok (), last)) ∧
    ∀ x, path.Leads scope x →
      value (⟨source, .path path⟩ : Expression) scope = .ok x ∧
      assign (⟨source, .path path⟩ : Expression) x scope = (.ok (), scope) := by
  simp only [Expression.value_eq_ok_iff, Expression.assign_eq_ok_iff]
  constructor
  · intro scope' h
    -- The outcome and the scope of the assignment, one by one.
    have hfst : (path.assign new scope).1 = .ok () := congrArg Prod.fst h
    obtain rfl : (path.assign new scope).2 = scope' := congrArg Prod.snd h
    refine ⟨Path.read_assign hfst, (path.assign newer scope).2, ?_, ?_⟩
    · rw [Path.assign_assign hfst]
      exact Prod.ext (Path.assign_ok_congr hfst newer) rfl
    · exact Prod.ext (Path.assign_ok_congr hfst newer) rfl
  · intro x h
    exact ⟨h.read, h.assign⟩

/-- An entry in an item of a list. -/
theorem lens_laws_entry :
    let e : Expression := ⟨"a[1].k", .path ⟨"a", [.index 1, .property "k"]⟩⟩
    let scope (x : Value) : Scope := ⟨[("a", .list [.nil, .map [("k", x)]])]⟩
    assign e (.bool true) (scope .nil) = (.ok (), scope (.bool true)) ∧
      Path.Leads ⟨"a", [.index 1, .property "k"]⟩ (scope .nil) .nil ∧
      value e (scope (.bool true)) = .ok (.bool true) ∧
      (∃ last, assign e (.string "v") (scope (.bool true)) = (.ok (), last) ∧
        assign e (.string "v") (scope .nil) = (.ok (), last)) ∧
      value e (scope .nil) = .ok .nil ∧ assign e .nil (scope .nil) = (.ok (), scope .nil) := by
  intro e scope
  have hassign : assign e (.bool true) (scope .nil) = (.ok (), scope (.bool true)) := rfl
  have hleads : Path.Leads ⟨"a", [.index 1, .property "k"]⟩ (scope .nil) .nil :=
    ⟨_, rfl, .index rfl (.property rfl (.here .nil))⟩
  obtain ⟨hput, hget⟩ := lens_laws "a[1].k" ⟨"a", [.index 1, .property "k"]⟩ (scope .nil)
    (.bool true) (.string "v")
  obtain ⟨hread, hagain⟩ := hput _ hassign
  exact ⟨hassign, hleads, hread, hagain, hget _ hleads⟩

end Interpolation
