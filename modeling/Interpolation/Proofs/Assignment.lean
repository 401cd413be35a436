import Interpolation.Expression.Parser

/-!
# Assignment

An assignment walks down a path and puts a new value where the path ends.  It may be stopped at any
step, by a variable or an entry that is missing, by a list that is too short, or by a value without
parts, and then the values that were walked through are put back as they were.  What stops a path is
not in the path: for each there is a scope in which it can be assigned.  So an evaluable is a place
exactly if it is a path, and of the pieces of a template only the one that is the whole template can
be one.

## Main definitions

- `Value.roomFor`: a value in which some steps can be taken.
- `Evaluable.Consistent`: an evaluable is a place exactly where it says so.

## Main results

- `Value.assign_unchanged`, `Path.assign_unchanged`: an assignment that fails changes nothing.
- `Path.exists_scope`: every path can be assigned in some scope.
- `writability_consistent`: expressions, pieces and templates are places exactly where they say so.
-/

namespace Interpolation

/-! ## Layer A: one step -/

namespace Value

variable {value part new : Value} {accessor : Accessor} {accessors : List Accessor}
  {e : AccessError}

/-- The part that a step leads to, put back in its place, changes nothing. -/
theorem setChild_eq_self (h : value.child accessor = .ok (some part)) :
    value.setChild accessor part = value := by
  cases value with
  | map entries =>
    cases accessor with
    | property name => exact congrArg map (Dictionary.insert_eq_self (Except.ok.inj h))
    | key name => exact congrArg map (Dictionary.insert_eq_self (Except.ok.inj h))
    | index i => cases h
  | list items =>
    cases accessor with
    | index i =>
      cases hitem : items[i]? with
      | none => simp [child, hitem] at h
      | some item =>
        have hpart : item = part := by simpa [child, hitem] using h
        -- The item is there, so it is the one that is put back.
        obtain ⟨hi, hget⟩ := List.getElem?_eq_some_iff.mp hitem
        subst hpart
        subst hget
        exact congrArg list (List.set_getElem_self hi)
    | property name => cases h
    | key name => cases h
  | nil => cases h
  | bool b => cases h
  | number x => cases h
  | string s => cases h

theorem assign_nil (value new : Value) : value.assign [] new = (.ok (), new) := by
  rw [assign]

theorem assign_of_child_error (h : value.child accessor = .error e) (accessors : List Accessor)
    (new : Value) : value.assign (accessor :: accessors) new = (.error e, value) := by
  rw [assign, h]

/-- A missing entry is created by the last step of an assignment, and ends any other. -/
theorem assign_of_child_none (h : value.child accessor = .ok none) (accessors : List Accessor)
    (new : Value) :
    value.assign (accessor :: accessors) new =
      if accessors = [] then (.ok (), value.setChild accessor new)
      else (.error (.missingEntry accessor.name), value) := by
  rw [assign, h]

/-- Where there is a part, the assignment goes on in it. -/
theorem assign_of_child_some (h : value.child accessor = .ok (some part))
    (accessors : List Accessor) (new : Value) :
    value.assign (accessor :: accessors) new =
      ((part.assign accessors new).1, value.setChild accessor (part.assign accessors new).2) := by
  rw [assign, h]

/-! ## Layer B: assignments that fail -/

/-- An assignment that fails, at whatever step, changes nothing. -/
theorem assign_unchanged (h : (value.assign accessors new).1 = .error e) :
    (value.assign accessors new).2 = value := by
  induction accessors generalizing value with
  | nil =>
    rw [assign_nil] at h
    cases h
  | cons accessor accessors ih =>
    cases hchild : value.child accessor with
    | error e' => rw [assign_of_child_error hchild]
    | ok part? =>
      cases part? with
      | none =>
        rw [assign_of_child_none hchild] at h ⊢
        split
        · -- The last step creates its entry and does not fail.
          next hlast =>
          rw [if_pos hlast] at h
          cases h
        · rfl
      | some part =>
        rw [assign_of_child_some hchild] at h ⊢
        -- The part is as it was, and so is the value with the part put back.
        have hpart : (part.assign accessors new).2 = part := ih h
        dsimp only
        rw [hpart, setChild_eq_self hchild]

/-! ## Layer C: assignments that succeed -/

/-- A value in which some steps can be taken: a map or a list for each of them. -/
def roomFor : List Accessor → Value
  | [] => nil
  | .property name :: accessors | .key name :: accessors => map [(name, roomFor accessors)]
  -- A list that is just long enough.
  | .index i :: accessors => list (List.replicate (i + 1) (roomFor accessors))

theorem child_roomFor (accessor : Accessor) (accessors : List Accessor) :
    (roomFor (accessor :: accessors)).child accessor = .ok (some (roomFor accessors)) := by
  cases accessor with
  | property name => simp [roomFor, child, Dictionary.get?_cons]
  | key name => simp [roomFor, child, Dictionary.get?_cons]
  | index i => simp [roomFor, child]

theorem assign_roomFor (accessors : List Accessor) (new : Value) :
    ((roomFor accessors).assign accessors new).1 = .ok () := by
  induction accessors with
  | nil => rw [assign_nil]
  | cons accessor accessors ih => rw [assign_of_child_some (child_roomFor accessor accessors), ih]

end Value

namespace Path

variable {path : Path} {scope : Scope} {new : Value} {e : AccessError}

theorem set_eq_self {name : String} {value : Value} (h : scope.get? name = some value) :
    scope.set name value = scope :=
  congrArg Scope.mk (Dictionary.insert_eq_self h)

theorem assign_variable (root : String) (new : Value) (scope : Scope) :
    (Path.mk root []).assign new scope = (.ok (), scope.set root new) := by
  rw [assign]

/-- Below a variable that is not defined nothing is assigned. -/
theorem assign_of_undefined {root : String} (h : scope.get? root = none) (accessor : Accessor)
    (accessors : List Accessor) (new : Value) :
    (Path.mk root (accessor :: accessors)).assign new scope =
      (.error (.undefinedVariable root), scope) := by
  simp only [assign, h]

/-- Below a variable that is defined the assignment goes on in its value. -/
theorem assign_of_defined {root : String} {value : Value} (h : scope.get? root = some value)
    (accessor : Accessor) (accessors : List Accessor) (new : Value) :
    (Path.mk root (accessor :: accessors)).assign new scope =
      ((value.assign (accessor :: accessors) new).1,
        scope.set root (value.assign (accessor :: accessors) new).2) := by
  simp only [assign, h]

/-- An assignment that fails leaves every variable as it was, with all its parts. -/
theorem assign_unchanged (h : (path.assign new scope).1 = .error e) :
    (path.assign new scope).2 = scope := by
  obtain ⟨root, accessors⟩ := path
  cases accessors with
  | nil =>
    rw [assign_variable] at h
    cases h
  | cons accessor accessors =>
    cases hroot : scope.get? root with
    | none => rw [assign_of_undefined hroot]
    | some value =>
      rw [assign_of_defined hroot] at h ⊢
      have hvalue : (value.assign (accessor :: accessors) new).2 = value :=
        Value.assign_unchanged h
      dsimp only
      rw [hvalue, set_eq_self hroot]

/-- Every path can be assigned in some scope. -/
theorem exists_scope (path : Path) (new : Value) :
    ∃ scope, (path.assign new scope).1 = .ok () := by
  obtain ⟨root, accessors⟩ := path
  cases accessors with
  | nil => exact ⟨.empty, by rw [assign_variable]⟩
  | cons accessor accessors =>
    -- The variable is given a value with room for all of the steps.
    have hroot : (Scope.empty.set root (Value.roomFor (accessor :: accessors))).get? root =
        some (Value.roomFor (accessor :: accessors)) := Dictionary.get?_insert_self _ _ _
    refine ⟨Scope.empty.set root (Value.roomFor (accessor :: accessors)), ?_⟩
    rw [assign_of_defined hroot]
    exact Value.assign_roomFor (accessor :: accessors) new

end Path

/-! ## Layer D: evaluables -/

/-- An evaluable is a place exactly where it says so, and assigning to it is done or not done. -/
structure Evaluable.Consistent {ε : Type} [Evaluable ε] (x : ε) : Prop where
  /-- What is no place refuses every value, and names the text it was read from. -/
  refused : isWritable x = false → ∀ new scope,
    (assign x new scope).1 = .error ⟨.notWritable (source x), ⟨0, 0⟩, none, none⟩
  /-- Assigning to a place fails only with what evaluating fails with. -/
  evaluation : isWritable x = true →
    ∀ new scope e, (assign x new scope).1 = .error e → ∃ message, e.kind = .evaluation message
  /-- An assignment that fails changes nothing. -/
  unchanged : ∀ new scope e, (assign x new scope).1 = .error e → (assign x new scope).2 = scope
  /-- A place is what can be assigned in some scope. -/
  possible : isWritable x = true ↔ ∃ scope new, (assign x new scope).1 = .ok ()

/-- Whatever refuses every assignment and says that it is no place. -/
theorem Evaluable.Consistent.of_readOnly {ε : Type} [Evaluable ε] {x : ε}
    (hplace : isWritable x = false)
    (hassign : ∀ new scope, assign x new scope = (.error (readOnly (source x)), scope)) :
    Consistent x where
  refused := by
    intro _ new scope
    -- Every assignment is the same failure.
    rw [hassign]
    rfl
  evaluation := by
    intro hwritable
    rw [hplace] at hwritable
    cases hwritable
  unchanged := by
    intro new scope e _
    rw [hassign]
  possible := by
    constructor
    · intro hwritable
      rw [hplace] at hwritable
      cases hwritable
    · rintro ⟨scope, new, hok⟩
      rw [hassign] at hok
      cases hok

/-- What stands for another evaluable in every respect is consistent as that one is. -/
theorem Evaluable.Consistent.of_alike {ε ε' : Type} [Evaluable ε] [Evaluable ε'] {x : ε} {y : ε'}
    (h : Consistent x) (hplace : isWritable y = isWritable x) (hsource : source y = source x)
    (hassign : ∀ new scope, assign y new scope = assign x new scope) : Consistent y where
  refused := by
    rw [hplace, hsource]
    intro hrefused new scope
    rw [hassign]
    exact h.refused hrefused new scope
  evaluation := by
    rw [hplace]
    intro hwritable new scope e hfailed
    rw [hassign] at hfailed
    exact h.evaluation hwritable new scope e hfailed
  unchanged := by
    intro new scope e hfailed
    rw [hassign] at hfailed ⊢
    exact h.unchanged new scope e hfailed
  possible := by
    rw [hplace, h.possible]
    simp only [hassign]

namespace Expression

open Evaluable (Consistent)

theorem assign_path (source : String) (path : Path) (new : Value) (scope : Scope) :
    Evaluable.assign (⟨source, .path path⟩ : Expression) new scope =
      ((path.assign new scope).1.mapError AccessError.toError, (path.assign new scope).2) :=
  rfl

theorem exists_of_mapError_eq_error {outcome : Except AccessError Unit} {e : Error}
    (h : outcome.mapError AccessError.toError = .error e) :
    ∃ stopped, outcome = .error stopped ∧ e = stopped.toError := by
  cases outcome with
  | ok _ => cases h
  | error stopped => exact ⟨stopped, rfl, (Except.error.inj h).symm⟩

/-- A path is a place in some scope, and its assignments fail as they should. -/
theorem consistent_path (source : String) (path : Path) :
    Consistent (⟨source, .path path⟩ : Expression) where
  refused := by
    intro hplace
    cases hplace
  evaluation := by
    intro _ new scope e h
    -- What has stopped the path becomes an error about an evaluation.
    rw [assign_path] at h
    obtain ⟨stopped, -, rfl⟩ := exists_of_mapError_eq_error h
    exact ⟨stopped.message, rfl⟩
  unchanged := by
    intro new scope e h
    rw [assign_path] at h ⊢
    obtain ⟨stopped, hstopped, -⟩ := exists_of_mapError_eq_error h
    exact Path.assign_unchanged hstopped
  possible := by
    refine ⟨fun _ => ?_, fun _ => rfl⟩
    obtain ⟨scope, hok⟩ := path.exists_scope .nil
    refine ⟨scope, .nil, ?_⟩
    rw [assign_path, hok]
    rfl

/-- An expression is a place exactly if it is a path. -/
theorem consistent (e : Expression) : Consistent e := by
  obtain ⟨source, node⟩ := e
  cases node with
  | path path => exact consistent_path source path
  | literal value => exact .of_readOnly rfl fun _ _ => rfl
  | list items => exact .of_readOnly rfl fun _ _ => rfl

end Expression

theorem consistent_part (p : Part Expression) : Evaluable.Consistent p :=
  .of_readOnly rfl fun _ _ => rfl

theorem consistent_child (child : Child Expression) : Evaluable.Consistent child := by
  cases child with
  | whole e => exact e.consistent.of_alike rfl rfl fun _ _ => rfl
  | part p => exact (consistent_part p).of_alike rfl rfl fun _ _ => rfl

/-- A template is a place if it is a single expression that is one. -/
theorem consistent_template (t : Template Expression) : Evaluable.Consistent t := by
  cases t with
  | literal text => exact .of_readOnly rfl fun _ _ => rfl
  | expression e => exact e.consistent.of_alike rfl rfl fun _ _ => rfl
  | composite c => exact .of_readOnly rfl fun _ _ => rfl

/-- **An evaluable is a place exactly where it says so, and a failed assignment changes nothing.**
This holds of expressions, of pieces whatever they are, of pieces in a row, and of templates of any
shape with all that they are made of. -/
theorem writability_consistent :
    (∀ e : Expression, Evaluable.Consistent e) ∧
      (∀ p : Part Expression, Evaluable.Consistent p) ∧
      (∀ c : Composite Expression, Evaluable.Consistent c) ∧
      ∀ t : Template Expression, Evaluable.Consistent t ∧
        ∀ child ∈ t.children, Evaluable.Consistent child := by
  refine ⟨Expression.consistent, consistent_part, fun c => .of_readOnly rfl fun _ _ => rfl, ?_⟩
  intro t
  exact ⟨consistent_template t, fun child _ => consistent_child child⟩

end Interpolation
