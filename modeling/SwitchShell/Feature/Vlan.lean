import SwitchShell.Feature.Mode

namespace SwitchShell.Feature.Vlan

def identified (id : Int) : Condition :=
  .equals "id" (.integer id)

def newRow (id : Int) : Row :=
  [("admin", .string "down"), ("id", .integer id), ("name", .string ("VLAN" ++ toString id))]

/-- The `vlan` command: makes the VLAN unless it is there and enters its mode. -/
def configure : Handler := fun arguments => do
  match arguments.integer? with
  | none => throw (.refused .internalVlan)
  | some id =>
      let existing ← Action.query (Query.select vlanTable [identified id] (some ["id"]))
      if existing.isEmpty then
        Action.query (Query.insert vlanTable (newRow id))
      Action.enter { mode := vlanMode, object := some (.integer id) }
      return .proceed

def shutdown : Handler := fun arguments => do
  match ((← get).contexts.object? vlanMode).bind Value.integer? with
  | none => throw (.refused .noVlanSelected)
  | some id =>
      let changed ← Action.query (Query.update vlanTable [identified id]
        [("admin", .string (adminText arguments.negated))])
      if changed = 0 then
        throw (.refused (.vlanMissing id))
      return .proceed

/-- The number of a VLAN row; zero if there is none. -/
def rowId (row : Row) : Int :=
  ((Dictionary.find? "id" row).bind Json.signed?).getD 0

/-- Sorts rows by number; rows of one number keep their order. -/
def sortRows (rows : List Row) : List Row :=
  rows.mergeSort fun left right => rowId left ≤ rowId right

def shownColumns : List String := ["id", "name", "oper_state", "oper_state_reason"]

def shownCells (row : Row) : List String :=
  shownColumns.map fun column => ((Dictionary.find? column row).map Row.atomText).getD ""

def showInternal : Action Unit := do
  let config ← Action.query (Query.getMap systemTable "other_config" [])
  let setting (key : String) : String := (Dictionary.find? key config).getD ""
  Action.info ("Internal VLAN range: " ++ setting "min_internal_vlan" ++ "-" ++
    setting "max_internal_vlan")
  Action.info ("Internal VLAN policy: " ++ setting "internal_vlan_policy")

def showVlan : Handler := fun arguments => do
  if arguments.has 0 1 then
    showInternal
    return .proceed
  let id := arguments.integer?
  let rows ← Action.query
    (Query.select vlanTable (id.map identified).toList (some shownColumns))
  if arguments.has 0 2 then
    Action.info ("Number of existing VLANs: " ++ toString rows.length)
  else
    match id, rows with
    | some id, [] => Action.info (Refusal.vlanMissing id).message
    | _, rows =>
        Action.emit (.tableOf ["ID", "Name", "State", "Reason"] ((sortRows rows).map shownCells))
  return .proceed

def runningConfig : Query (List String) := do
  let rows ← Query.select vlanTable [] (some ["id", "admin"])
  return (sortRows rows).flatMap fun row =>
    ("vlan " ++ toString (rowId row)) ::
      (if row.textAt? "admin" = some "up" then ["\tno shutdown"] else [])

def identifier : Token :=
  (Token.range 1 4095).withHelp "VLAN identifier"

def internal : Token :=
  .keyword "internal" "VLAN internal configuration"

def configureCommand : Command :=
  { path := ["vlan"]
    help := "VLAN configuration"
    handler := configure
    options := [(OptionGroup.oneOf [identifier, internal]).mandatory] }

def shutdownCommand : Command :=
  { path := ["shutdown"]
    help := "Disable the VLAN"
    handler := shutdown
    negatable := true }

def showCommand : Command :=
  { path := ["show", "vlan"]
    help := "Show VLAN configuration"
    handler := showVlan
    options := [.oneOf [identifier, internal, .keyword "summary" "VLAN summary"]] }

def register : Registration :=
  inTurn [
    Registry.register configMode configureCommand,
    Registry.register vlanMode shutdownCommand,
    Registry.register globalMode showCommand]

end SwitchShell.Feature.Vlan
