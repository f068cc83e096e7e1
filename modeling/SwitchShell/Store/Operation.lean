import SwitchShell.Store.Row

namespace SwitchShell

/-- Selects the rows whose column stands in the relation `function` to a value. -/
structure Condition where
  column : String
  function : String
  value : Json

/-- Changes a map column. -/
structure Mutation where
  column : String
  mutator : String
  value : Json

inductive Operation where
  | select (table : String) (conditions : List Condition) (columns : Option (List String))
  | insert (table : String) (row : Row)
  | update (table : String) (conditions : List Condition) (row : Row)
  | mutate (table : String) (conditions : List Condition) (mutations : List Mutation)

structure OperationResult where
  rows : List Row := []
  count : Option Nat := none
  uuid : Option Json := none
  error : Option String := none
  details : Option String := none
deriving Inhabited

namespace Condition

def equals (column : String) (value : Json) : Condition :=
  { column, function := "==", value }

def named (name : String) : Condition :=
  equals "name" (.string name)

end Condition

namespace Mutation

/-- Adds an entry whose key is not there yet. -/
def insertKey (column key value : String) : Mutation :=
  { column, mutator := "insert", value := Row.encodeMap [(key, value)] }

/-- Removes the entry of a key. -/
def deleteKey (column key : String) : Mutation :=
  { column, mutator := "delete", value := .array [.string "set", .ofStrings [key]] }

end Mutation

namespace Operation

def table : Operation → String
  | .select table _ _ => table
  | .insert table _ => table
  | .update table _ _ => table
  | .mutate table _ _ => table

/-- The operation cannot change a table. -/
def isRead : Operation → Bool
  | .select _ _ _ => true
  | _ => false

end Operation

end SwitchShell
