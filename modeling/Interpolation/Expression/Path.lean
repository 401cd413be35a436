import Interpolation.Scope

/-!
# Paths

A path starts at a variable and leads through maps and lists to a place that can be read and
assigned.

Reading takes a missing variable or entry for nothing, and goes on from there.  Assigning creates
the last entry of a path if it is missing, and nothing else.  An assignment reports its outcome
together with the value or scope afterwards, whether it succeeds or not.

## Main definitions

* `Accessor`, `Path`: the steps of a path.
* `Value.child`, `Value.setChild`: one step down, and its undoing.
* `Path.read`, `Path.assign`: the two uses of a path.
* `AccessError`: what stops a path.
-/

namespace Interpolation

/-- A step from a value to one of its parts. -/
inductive Accessor where
  /-- An entry of a map, by a name. -/
  | property (name : String)
  /-- An entry of a map, by any text. -/
  | key (name : String)
  /-- An item of a list, counted from zero. -/
  | index (i : Nat)
deriving DecidableEq

/-- A place in a scope. -/
structure Path where
  /-- The variable at which the path starts. -/
  root : String
  /-- The steps from there. -/
  accessors : List Accessor
deriving DecidableEq

/-- What stops a path. -/
inductive AccessError where
  /-- A place below a variable is assigned, and the variable is not defined. -/
  | undefinedVariable (name : String)
  /-- A place below an entry is assigned, and the entry is missing. -/
  | missingEntry (key : String)
  /-- A list has no item of that number. -/
  | outOfBounds (index length : Nat)
  /-- A value has no parts of that kind. -/
  | unsuitable (accessor : Accessor) (typeName : String)
deriving DecidableEq

namespace Accessor

/-- The name of the entry or the number of the item that a step leads to. -/
def name : Accessor → String
  | property name | key name => name
  | index i => toString i

/-- A step in words. -/
def describe : Accessor → String
  | property name => "property '" ++ name ++ "'"
  | key name => "key '" ++ name ++ "'"
  | index i => "index " ++ toString i

end Accessor

namespace AccessError

/-- An access error in words. -/
def message : AccessError → String
  | undefinedVariable name => "variable '" ++ name ++ "' is not defined"
  | missingEntry key => "no entry '" ++ key ++ "' to assign into"
  | outOfBounds index length =>
    "index " ++ toString index ++ " out of bounds for list of length " ++ toString length
  | unsuitable accessor typeName => "cannot read " ++ accessor.describe ++ " of " ++ typeName

end AccessError

namespace Value

/-- The part of a value that a step leads to.  A map has room for every entry, present or not; a
list has no room beyond its items. -/
def child : Value → Accessor → Except AccessError (Option Value)
  | map entries, .property name | map entries, .key name => .ok (Dictionary.get? name entries)
  | list items, .index i =>
    match items[i]? with
    | some item => .ok (some item)
    | none => .error (.outOfBounds i items.length)
  -- A value without parts, or one with parts of another kind.
  | value, accessor => .error (.unsuitable accessor value.typeName)

/-- A value with another part in the place that a step leads to. -/
def setChild : Value → Accessor → Value → Value
  | map entries, .property name, part | map entries, .key name, part =>
    map (Dictionary.insert name part entries)
  | list items, .index i, part => list (items.set i part)
  | value, _, _ => value

/-- The part of a value that some steps lead to.  A missing entry is nothing. -/
def read : Value → List Accessor → Except AccessError Value
  | value, [] => .ok value
  | value, accessor :: accessors =>
    match value.child accessor with
    | .ok part? => read (part?.getD nil) accessors
    | .error e => .error e

/-- Puts a new value into the place that some steps lead to.  Gives the outcome, and the whole value
afterwards. -/
def assign : Value → List Accessor → Value → Except AccessError Unit × Value
  | _, [], new => (.ok (), new)
  | value, accessor :: accessors, new =>
    match value.child accessor with
    | .error e => (.error e, value)
    | .ok none =>
      -- Only the last step of a path creates its entry.
      if accessors = [] then (.ok (), value.setChild accessor new)
      else (.error (.missingEntry accessor.name), value)
    | .ok (some part) =>
      -- The part is put back also if the assignment in it has failed: then it is as it was.
      let (outcome, part) := part.assign accessors new
      (outcome, value.setChild accessor part)

end Value

namespace Path

/-- The value in a place.  A variable that is not defined is nothing. -/
def read (path : Path) (scope : Scope) : Except AccessError Value :=
  ((scope.get? path.root).getD .nil).read path.accessors

/-- Puts a new value into a place.  Gives the outcome, and the scope afterwards.  The path that is a
variable defines it; a longer one needs it to be defined. -/
def assign (path : Path) (new : Value) (scope : Scope) : Except AccessError Unit × Scope :=
  match path.accessors, scope.get? path.root with
  | [], _ => (.ok (), scope.set path.root new)
  | _ :: _, none => (.error (.undefinedVariable path.root), scope)
  | accessor :: accessors, some value =>
    let (outcome, value) := value.assign (accessor :: accessors) new
    (outcome, scope.set path.root value)

end Path

end Interpolation
