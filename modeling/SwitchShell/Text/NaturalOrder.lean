import SwitchShell.Text.Numeral

namespace SwitchShell.Text

/-- Numbers have `number` and their value, other names come after them. -/
structure NaturalKey where
  named : Bool
  number : Nat
  name : String
deriving DecidableEq, Repr

def naturalKey (name : String) : NaturalKey :=
  match unsigned? maxUnsigned64 name with
  | some number => { named := false, number, name }
  | none => { named := true, number := 0, name }

/-- The first key is at most the second. -/
def NaturalKey.le (left right : NaturalKey) : Bool :=
  if left.named ≠ right.named then right.named
  else if left.number ≠ right.number then left.number < right.number
  else !(right.name < left.name)

/-- Sorts names by their keys; names with one key keep their order. -/
def naturalSort (names : List String) : List String :=
  names.mergeSort fun left right => (naturalKey left).le (naturalKey right)

end SwitchShell.Text
