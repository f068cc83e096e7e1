import SwitchShell.Dictionary
import SwitchShell.Text.Numeral

namespace SwitchShell

/-- Whole numbers and floating-point numbers are different values even where they stand
for the same number.  The members of an object are a dictionary. -/
inductive Json where
  | null
  | bool (value : Bool)
  | integer (value : Int)
  | float (value : Float)
  | string (value : String)
  | array (items : List Json)
  | object (members : List (String × Json))
deriving Inhabited

namespace Json

mutual

/-- Equality of values; floating-point numbers are equal as numbers are. -/
def equal : Json → Json → Bool
  | .null, .null => true
  | .bool left, .bool right => left == right
  | .integer left, .integer right => left == right
  | .float left, .float right => left == right
  | .string left, .string right => left == right
  | .array left, .array right => equalItems left right
  | .object left, .object right => equalMembers left right
  | _, _ => false

def equalItems : List Json → List Json → Bool
  | [], [] => true
  | left :: lefts, right :: rights => equal left right && equalItems lefts rights
  | _, _ => false

def equalMembers : List (String × Json) → List (String × Json) → Bool
  | [], [] => true
  | (leftName, left) :: lefts, (rightName, right) :: rights =>
      leftName == rightName && equal left right && equalMembers lefts rights
  | _, _ => false

end

instance : BEq Json := ⟨equal⟩

def string? : Json → Option String
  | .string value => some value
  | _ => none

def array? : Json → Option (List Json)
  | .array items => some items
  | _ => none

def object? : Json → Option (Dictionary Json)
  | .object members => some members
  | _ => none

/-- A whole number that fits 64 bits without a sign. -/
def unsigned? : Json → Option Nat
  | .integer value => if 0 ≤ value ∧ value ≤ Text.maxUnsigned64 then some value.toNat else none
  | _ => none

/-- A whole number that fits 64 bits with a sign. -/
def signed? : Json → Option Int
  | .integer value =>
      if -(Text.maxSigned64 : Int) - 1 ≤ value ∧ value ≤ Text.maxSigned64 then some value else none
  | _ => none

/-- The member of an object, or nothing for any other value. -/
def get? (name : String) : Json → Option Json
  | .object members => Dictionary.find? name members
  | _ => none

/-- An object from members in any order. -/
def ofMembers (members : List (String × Json)) : Json :=
  .object (Dictionary.ofPairs members)

def ofStrings (texts : List String) : Json :=
  .array (texts.map .string)

end Json

end SwitchShell
