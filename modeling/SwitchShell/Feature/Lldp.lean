import SwitchShell.Feature.Mode

namespace SwitchShell.Feature.Lldp

/-- The directions in which an interface takes part. -/
structure Direction where
  receive : Bool
  transmit : Bool
deriving DecidableEq, Repr

namespace Direction

/-- Reads `rx`, `tx`, `rxtx` or `off`.  No value means both directions. -/
def parse : Option String → Direction
  | none => { receive := true, transmit := true }
  | some text =>
      if text = "off" then { receive := false, transmit := false }
      else { receive := Text.contains text "rx", transmit := Text.contains text "tx" }

def text : Direction → String
  | ⟨true, true⟩ => "rxtx"
  | ⟨true, false⟩ => "rx"
  | ⟨false, true⟩ => "tx"
  | ⟨false, false⟩ => "off"

end Direction

/-- Information a device may advertise: the word of the command, the key of the
setting and a description. -/
structure Advertisement where
  word : String
  key : String
  description : String
deriving DecidableEq, Repr

def advertisements : List Advertisement := [
  ⟨"management-address", "lldp_tlv_mgmt_addr_enable", "Management address"⟩,
  ⟨"port-description", "lldp_tlv_port_desc_enable", "Port description"⟩,
  ⟨"port-protocol-id", "lldp_tlv_port_proto_id_enable", "Port protocol ID"⟩,
  ⟨"port-protocol-vlan-id", "lldp_tlv_port_proto_vlan_id_enable", "Port protocol VLAN ID"⟩,
  ⟨"port-vlan-id", "lldp_tlv_port_vlan_id_enable", "Port VLAN ID"⟩,
  ⟨"port-vlan-name", "lldp_tlv_port_vlan_name_enable", "Port VLAN name"⟩,
  ⟨"system-capabilities", "lldp_tlv_sys_cap_enable", "System capabilities"⟩,
  ⟨"system-description", "lldp_tlv_sys_desc_enable", "System description"⟩,
  ⟨"system-name", "lldp_tlv_sys_name_enable", "System name"⟩]

def defaultHoldTime : String := "4"

def defaultInterval : String := "30"

def directionKey : String := "lldp_enable_dir"

def enableKey : String := "lldp_enable"

def holdTimeKey : String := "lldp_hold"

def intervalKey : String := "lldp_tx_interval"

def countersKey : String := "lldp_num_clear_counters_requested"

def neighborsKey : String := "lldp_num_clear_table_requested"

def settings : Query (Dictionary String) :=
  Query.getMap systemTable "other_config" []

def set (key value : String) : Query Unit :=
  Query.mapSetKey systemTable "other_config" key value []

def setOrClear (key : String) (value : Value) (present : Bool) : Query Unit :=
  if present then set key value.text
  else Query.mapDeleteKey systemTable "other_config" key []

def boolText (value : Bool) : String :=
  if value then "true" else "false"

/-- The number after a stored counter; what is no number of 64 bits counts as zero. -/
def nextCount (stored : Option String) : Except Fault Nat :=
  let count := (stored.bind (Text.unsigned? Text.maxUnsigned64)).getD 0
  if count < Text.maxUnsigned64 then .ok (count + 1) else .error .overflow

theorem eq_overflow_of_nextCount {stored : Option String} {fault : Fault}
    (failed : nextCount stored = .error fault) : fault = .overflow := by
  unfold nextCount at failed
  extract_lets count at failed
  split at failed
  · contradiction
  · cases failed
    rfl

/-- Asks for something to be cleared by raising its counter. -/
def requestClear (counter : String) : Query Unit := do
  let status ← Query.getMap systemTable "status" []
  let next ← ExceptT.mk (pure (nextCount (Dictionary.find? counter status)))
  Query.mapSetKey systemTable "status" counter (toString next) []

/-- The `lldp` command in configuration mode. -/
def configure : Handler := fun arguments => do
  let enabled := !arguments.negated
  if arguments.has 0 0 then
    Action.query (set enableKey (boolText enabled))
  if let some holdTime := arguments.get? 1 1 then
    Action.query (setOrClear holdTimeKey holdTime enabled)
  if let some interval := arguments.get? 2 1 then
    Action.query (setOrClear intervalKey interval enabled)
  if let some word := arguments.word? 3 1 then
    match advertisements.find? fun advertisement => advertisement.word == word with
    | some advertisement => Action.query (set advertisement.key (boolText enabled))
    | none => throw (.invalidValue word)
  if let some what := arguments.word? 4 1 then
    Action.query (requestClear (if what = "counters" then countersKey else neighborsKey))
  return .proceed

/-- The directions after a command that names some of them. -/
def Direction.after (old : Direction) (arguments : Arguments) : Direction :=
  { receive := if arguments.has 0 0 then !arguments.negated else old.receive
    transmit := if arguments.has 0 1 then !arguments.negated else old.transmit }

/-- The `lldp` command in interface mode. -/
def configureInterface : Handler := fun arguments => do
  let object ← Action.objectOf interfaceMode .noInterfaceSelected
  let here := [Condition.named object.text]
  let config ← Action.query (Query.getMap interfaceTable "other_config" here)
  let old := Direction.parse (Dictionary.find? directionKey config)
  let new := old.after arguments
  if new ≠ old then
    Action.query (Query.mapSetKey interfaceTable "other_config" directionKey new.text here)
  return .proceed

def yesNo (value : Bool) : String :=
  if value then "Yes" else "No"

/-- Names and one column of the interfaces, or of one of them, in natural order. -/
def interfaceColumn (column : String) (interface : Option String) :
    Query (List (String × Json)) := do
  let conditions := (interface.map Condition.named).toList
  let rows ← Query.select interfaceTable conditions (some ["name", column])
  let entries := rows.filterMap fun row =>
    (row.textAt? "name").map fun name => (name, (Dictionary.find? column row).getD .null)
  return entries.mergeSort fun left right =>
    (Text.naturalKey left.1).le (Text.naturalKey right.1)

/-- What is advertised; all of it unless a setting says otherwise. -/
def advertised (config : Dictionary String) : List String :=
  (advertisements.filter fun advertisement =>
    (Dictionary.find? advertisement.key config).all (· == "true")).map fun advertisement =>
      "  " ++ advertisement.description

def showAdvertised : Action Unit := do
  let config ← Action.query settings
  Action.info "TLVs advertised:"
  let lines := advertised config
  if !lines.isEmpty then
    Action.info (String.intercalate "\n" lines)

def globalPairs (config : Dictionary String) : List (String × String) :=
  [("Enabled", yesNo (Dictionary.find? enableKey config == some "true")),
   ("Hold time", (Dictionary.find? holdTimeKey config).getD defaultHoldTime),
   ("Transmit interval", (Dictionary.find? intervalKey config).getD defaultInterval)] ++
  ((Dictionary.find? "lldp_mgmt_addr" config).map fun address =>
    ("Management address", address)).toList

def showConfiguration (interface : Option String) : Action Unit := do
  let config ← Action.query settings
  Action.info "LLDP global configuration:"
  Action.emit (.pairs (globalPairs config))
  Action.info ""
  showAdvertised
  Action.info ""
  let entries ← Action.query (interfaceColumn "other_config" interface)
  let rows := entries.map fun (name, config) =>
    let direction := Direction.parse (Dictionary.find? directionKey (Row.decodeMap config))
    [name, yesNo direction.receive, yesNo direction.transmit]
  Action.info "Port configuration:"
  Action.emit ((Output.tableOf ["Interface", "Receive", "Transmit"] rows).indented 2)

def showStatistics (interface : Option String) : Action Unit := do
  let entries ← Action.query (interfaceColumn "lldp_statistics" interface)
  let rows := entries.map fun (name, statistics) =>
    name :: ["lldp_tx", "lldp_rx", "lldp_rx_discard"].map fun key =>
      (Dictionary.find? key (Row.decodeMap statistics)).getD "0"
  Action.emit (.tableOf ["Interface", "Transmitted", "Received", "Discarded"] rows)

def showLldp : Handler := fun arguments => do
  let interface := arguments.word? 0 1
  let showsAdvertised := arguments.has 1 0
  match arguments.word? 0 0 with
  | some "configuration" => showConfiguration interface
  | some "statistics" => showStatistics interface
  | _ => if !showsAdvertised then throw .incompleteCommand
  if showsAdvertised then
    showAdvertised
  return .proceed

/-- A line for a setting that is not the default. -/
def settingLine (config : Dictionary String) (key initial : String) (start : String) :
    List String :=
  ((Dictionary.find? key config).filter (· ≠ initial)).toList.map (start ++ ·)

def runningConfig : Query (List String) := do
  let config ← settings
  return (if Dictionary.find? enableKey config == some "true" then ["lldp enable"] else []) ++
    settingLine config holdTimeKey defaultHoldTime "lldp holdtime " ++
    settingLine config intervalKey defaultInterval "lldp timer " ++
    advertisements.flatMap fun advertisement =>
      ((Dictionary.find? advertisement.key config).filter (· ≠ "true")).toList.map fun _ =>
        "no lldp select-tlv " ++ advertisement.word

def advertisementChoice : Token :=
  Token.choice (advertisements.map fun advertisement =>
    (advertisement.word, "Select " ++ advertisement.word ++ " TLV"))

def configureCommand : Command :=
  { path := ["lldp"]
    help := "Configure LLDP parameters"
    handler := configure
    negatable := true
    options := [
      .oneOf [.keyword "enable" "Enable or disable LLDP"],
      .allOrdered [
        .keyword "holdtime" "Hold time multiplier",
        (Token.range 2 10).withHelp "Hold time multiplier"],
      .allOrdered [
        .keyword "timer" "LLDP status transmit interval",
        (Token.range 5 32768).withHelp "Interval in seconds"],
      .allOrdered [
        .keyword "select-tlv" "Specify TLVs to send and receive in LLDP packets",
        advertisementChoice],
      .allOrdered [
        .keyword "clear" "Clear LLDP information",
        .choice [
          ("counters", "Clear LLDP counters"),
          ("neighbors", "Clear LLDP neighbor entries")]]] }

def interfaceCommand : Command :=
  { path := ["lldp"]
    help := "Configure LLDP on this interface"
    handler := configureInterface
    negatable := true
    options := [
      (OptionGroup.anyUnordered [
        .keyword "reception" "Set LLDP reception",
        .keyword "transmission" "Set LLDP transmission"]).mandatory] }

def showCommand : Command :=
  { path := ["show", "lldp"]
    help := "LLDP settings and statistics"
    handler := showLldp
    options := [
      .anyOrdered [
        .choice [
          ("configuration", "LLDP configuration"),
          ("statistics", "LLDP statistics")],
        .name .interface],
      .oneOf [.keyword "tlv" "TLVs advertised by LLDP"]] }

def register : Registration :=
  inTurn [
    Registry.register configMode configureCommand,
    Registry.register interfaceMode interfaceCommand,
    Registry.register globalMode showCommand]

end SwitchShell.Feature.Lldp
