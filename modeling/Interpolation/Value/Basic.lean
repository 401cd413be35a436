import Interpolation.Decimal.Shortest
import Interpolation.Dictionary

/-!
# Values

What an expression evaluates to.

## Main definitions

* `Value`: nothing, truth values, numbers, texts, lists and maps.
* `Value.display`: a value as text, and `Value.contribution`, the text it adds to a template.
-/

namespace Interpolation

/-- What an expression evaluates to. -/
inductive Value where
  /-- No value. -/
  | nil
  /-- A truth value. -/
  | bool (b : Bool)
  /-- A number in double precision. -/
  | number (x : Float)
  /-- A text. -/
  | string (s : String)
  /-- A list of values. -/
  | list (items : List Value)
  /-- A dictionary of values. -/
  | map (entries : List (String × Value))

namespace Value

instance : Inhabited Value := ⟨nil⟩

/-- The name of a value's kind, as errors give it. -/
def typeName : Value → String
  | nil => "Nil"
  | bool _ => "Bool"
  | number _ => "Number"
  | string _ => "String"
  | list _ => "List"
  | map _ => "Map"

mutual

/-- A value as text.  The items of a list and the entries of a map are written in their order,
without quotes. -/
def display : Value → String
  | nil => "null"
  | bool true => "true"
  | bool false => "false"
  | number x => floatText x
  | string s => s
  | list items => "[" ++ ", ".intercalate (displayItems items) ++ "]"
  | map entries => "\x7b" ++ ", ".intercalate (displayEntries entries) ++ "\x7d"

/-- The items of a list as texts. -/
def displayItems : List Value → List String
  | [] => []
  | item :: items => item.display :: displayItems items

/-- The entries of a map as texts, with the key in front of each. -/
def displayEntries : List (String × Value) → List String
  | [] => []
  | (key, value) :: entries => (key ++ "=" ++ value.display) :: displayEntries entries

end

/-- The text that a value adds to a template: what is missing adds nothing. -/
def contribution : Value → String
  | nil => ""
  | value => value.display

mutual

/-- Equality of values: numbers are compared as numbers, so not-a-number equals nothing. -/
def beq : Value → Value → Bool
  | nil, nil => true
  | bool a, bool b => a == b
  | number x, number y => x == y
  | string s, string t => s == t
  | list xs, list ys => beqItems xs ys
  | map xs, map ys => beqEntries xs ys
  | _, _ => false

/-- Equality of lists, item by item. -/
def beqItems : List Value → List Value → Bool
  | [], [] => true
  | x :: xs, y :: ys => x.beq y && beqItems xs ys
  | _, _ => false

/-- Equality of maps, entry by entry in their order. -/
def beqEntries : List (String × Value) → List (String × Value) → Bool
  | [], [] => true
  | (k, x) :: xs, (l, y) :: ys => k == l && x.beq y && beqEntries xs ys
  | _, _ => false

end

instance : BEq Value := ⟨beq⟩

end Value

end Interpolation
