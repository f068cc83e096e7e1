import SwitchShell.Feature.Lldp

namespace SwitchShell.Feature.Interface

/-- The `interface` command: enters the mode of an interface. -/
def configure : Handler := fun arguments => do
  match arguments.first? with
  | none => throw .optionRequired
  | some name =>
      Action.enter { mode := interfaceMode, object := some name }
      return .proceed

def shutdown : Handler := fun arguments => do
  let object ← Action.objectOf interfaceMode .noInterfaceSelected
  Action.query (Query.mapSetKey interfaceTable "user_config" "admin"
    (adminText arguments.negated) [Condition.named object.text])
  return .proceed

def plainColumns : List String :=
  ["admin_state", "link_state", "duplex", "link_speed", "link_resets", "mac_in_use"]

def statusColumns : List String :=
  "name" :: plainColumns ++ ["hw_intf_info"]

def detailLabels : List (String × String) := [
  ("admin_state", "Administrative state"),
  ("link_state", "Operational state"),
  ("duplex", "Duplex"),
  ("link_speed", "Speed"),
  ("link_resets", "Resets"),
  ("mac_in_use", "MAC address in use")]

def transceiverLabels : List (String × String) := [
  ("connector", "Connector"),
  ("mac_addr", "Mac address"),
  ("max_speed", "Max speed"),
  ("pluggable", "Removable"),
  ("speeds", "Supported speeds")]

/-- The name of an interface row; empty if there is none. -/
def rowName (row : Row) : String :=
  (row.textAt? "name").getD ""

/-- Sorts rows by name; rows of one name keep their order. -/
def sortRows (rows : List Row) : List Row :=
  rows.mergeSort fun left right =>
    (Text.naturalKey (rowName left)).le (Text.naturalKey (rowName right))

/-- The columns that are not empty, over which go the facts about the hardware. -/
def status (row : Row) : Dictionary String :=
  let plain := plainColumns.filterMap fun column =>
    ((Dictionary.find? column row).map Row.atomText).bind fun text =>
      if text.isEmpty then none else some (column, text)
  (Dictionary.ofPairs plain).merge (row.mapAt "hw_intf_info")

def briefLine (name : String) (data : Dictionary String) : String :=
  let link := (Dictionary.find? "link_state" data).getD "unknown"
  "Interface " ++ name ++ " is " ++ link ++
    (if link = "down" then
      " (administratively " ++ (Dictionary.find? "admin_state" data).getD "unknown" ++ ")"
    else "")

def shownValue (key value : String) : String :=
  if key = "pluggable" ∧ value = "true" then "Yes"
  else if key = "pluggable" ∧ value = "false" then "No"
  else value

/-- The values that are there, under their labels. -/
def labelled (labels : List (String × String)) (data : Dictionary String) :
    List (String × String) :=
  labels.filterMap fun (key, label) =>
    (Dictionary.find? key data).map fun value => (label, shownValue key value)

def managementPairs (status : Dictionary String) : List (String × String) :=
  let labelledAs (label key : String) : List (String × String) :=
    ((Dictionary.find? key status).map fun value => (label, value)).toList
  labelledAs "Operational state" "link_state" ++
  ((Dictionary.find? "ip" status).map fun ip =>
    ("IPv4 address/len",
      match Dictionary.find? "subnet_mask" status with
      | some mask => ip ++ "/" ++ mask
      | none => ip)).toList ++
  labelledAs "IPv4 default route" "default_gateway" ++
  labelledAs "IPv6 link local address/prefix" "ipv6_linklocal"

def showManagement : Action Unit := do
  let status ← Action.query (Query.getMap systemTable "mgmt_intf_status" [])
  Action.info "Interface mgmt:"
  Action.emit (.pairs (managementPairs status))

/-- The rows of all interfaces, or of the one that is named. -/
def shownRows : Option String → Query (List Row)
  | some name => do
      let rows ← Query.select interfaceTable [Condition.named name] (some statusColumns)
      let row ← ExceptT.mk (pure (Query.expectOne "interface" rows))
      return [row]
  | none => do
      let rows ← Query.select interfaceTable [] (some statusColumns)
      return sortRows rows

def shown (brief transceiver : Bool) (row : Row) : List Output :=
  let data := status row
  if brief then [.info (briefLine (rowName row) data)]
  else
    [.info ("Interface " ++ rowName row ++ ":"),
     .pairs (labelled (if transceiver then transceiverLabels else detailLabels) data)]

def showInterface : Handler := fun arguments => do
  if arguments.has 0 1 then
    showManagement
    return .proceed
  let rows ← Action.query (shownRows (arguments.word? 0 0))
  (rows.flatMap (shown (arguments.has 1 0) (arguments.has 1 1))).forM Action.emit
  return .proceed

/-- The lines that make the settings of one interface; none if all are defaults. -/
def configLines (row : Row) : List String :=
  let direction :=
    Lldp.Direction.parse (Dictionary.find? Lldp.directionKey (row.mapAt "other_config"))
  let block :=
    (if direction.receive then [] else ["\tno lldp reception"]) ++
    (if direction.transmit then [] else ["\tno lldp transmission"]) ++
    (if Dictionary.find? "admin" (row.mapAt "user_config") = some "up" then ["\tno shutdown"] else [])
  if block.isEmpty then [] else ("interface " ++ rowName row) :: block

def runningConfig : Query (List String) := do
  let rows ← Query.select interfaceTable [] (some ["name", "user_config", "other_config"])
  return (sortRows rows).flatMap configLines

def configureCommand : Command :=
  { path := ["interface"]
    help := "Select an interface to configure"
    handler := configure
    options := [(OptionGroup.oneOf [.name .interface]).mandatory] }

def shutdownCommand : Command :=
  { path := ["shutdown"]
    help := "Disable the interface"
    handler := shutdown
    negatable := true }

def showCommand : Command :=
  { path := ["show", "interface"]
    help := "Interface information"
    handler := showInterface
    options := [
      .oneOf [.name .interface, .keyword "mgmt" "Management interface details"],
      .oneOf [
        .keyword "brief" "Show brief information",
        .keyword "transceiver" "Show transceiver information"]] }

def register : Registration :=
  inTurn [
    Registry.register configMode configureCommand,
    Registry.register interfaceMode shutdownCommand,
    Registry.register globalMode showCommand]

end SwitchShell.Feature.Interface
