import SwitchShell.Grammar.Token
import SwitchShell.Store.Program
import SwitchShell.Text.NaturalOrder

namespace SwitchShell

/-- A program that may fail. -/
abbrev Query := ExceptT Fault Program

def systemTable : String := "System"

def interfaceTable : String := "Interface"

def vlanTable : String := "VLAN"

namespace Query

def transact (operations : List Operation) : Query (List OperationResult) :=
  ExceptT.mk (Program.send operations)

/-- The rows that meet the conditions, with the named columns or all of them. -/
def select (table : String) (conditions : List Condition)
    (columns : Option (List String)) : Query (List Row) := do
  let results ← transact [.select table conditions columns]
  return match results with
    | [] => []
    | result :: _ => result.rows

/-- A map column of the first row that meets the conditions; empty without one. -/
def getMap (table column : String) (conditions : List Condition) :
    Query (Dictionary String) := do
  let rows ← select table conditions (some [column])
  return match rows with
    | [] => []
    | row :: _ => row.mapAt column

def insert (table : String) (row : Row) : Query Unit := do
  let _ ← transact [.insert table row]

def countOf : List OperationResult → Nat
  | [] => 0
  | result :: _ => result.count.getD 0

/-- Overwrites columns of the rows that meet the conditions; gives their number. -/
def update (table : String) (conditions : List Condition) (row : Row) : Query Nat := do
  let results ← transact [.update table conditions row]
  return countOf results

/-- Applies the mutations to the rows that meet the conditions; gives their number. -/
def mutate (table : String) (conditions : List Condition) (mutations : List Mutation) :
    Query Nat := do
  let results ← transact [.mutate table conditions mutations]
  return countOf results

/-- Sets one key of a map column, whatever it was bound to. -/
def mapSetKey (table column key value : String) (conditions : List Condition) : Query Unit := do
  let _ ← mutate table conditions [.deleteKey column key, .insertKey column key value]

def mapDeleteKey (table column key : String) (conditions : List Condition) : Query Unit := do
  let _ ← mutate table conditions [.deleteKey column key]

/-- The names of all interfaces in natural order. -/
def interfaceNames : Query (List String) := do
  let rows ← select interfaceTable [] (some ["name"])
  return Text.naturalSort (rows.filterMap fun row => row.textAt? "name")

/-- A snapshot of the names of the given families. -/
def names : List NameKind → Query Names
  | [] => return {}
  | .interface :: kinds => do
      let interfaces ← interfaceNames
      let others ← names kinds
      return if kinds.isEmpty then { interfaces } else others

/-- The host name the management interface reports, unless it is empty. -/
def hostname : Query (Option String) := do
  let status ← getMap systemTable "mgmt_intf_status" []
  return (Dictionary.find? "hostname" status).filter fun name => !name.isEmpty

/-- Fails unless there is exactly one row. -/
def expectOne (what : String) : List Row → Except Fault Row
  | [] => .error (.refused (.noSuch what))
  | [row] => .ok row
  | _ => .error (.database (.duplicateRows what))

end Query

end SwitchShell
