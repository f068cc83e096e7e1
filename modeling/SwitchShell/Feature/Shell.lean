import SwitchShell.Feature.Interface
import SwitchShell.Feature.Vlan

namespace SwitchShell.Feature.Shell

def shellVersion : String := "0.1.0"

def quit : Handler := fun _ => return .terminate

def exit : Handler := fun _ => return .leave

def contextLine (depth : Nat) (context : Context) : String :=
  Text.spaces (2 * depth) ++ context.mode ++
    (match context.object with
    | some object => " " ++ object.text
    | none => "")

/-- The `pwc` command: a line for each context, each further in by two. -/
def showContexts : Handler := fun _ => do
  let contexts := (← get).contexts
  let lines := contexts.reverse.zipIdx.map fun (context, depth) => contextLine depth context
  if !lines.isEmpty then
    Action.info (String.intercalate "\n" lines)
  return .proceed

/-- The `configure` command: enters configuration mode. -/
def configure : Handler := fun _ => do
  Action.enter { mode := configMode }
  return .proceed

def labelled (labels : List (String × String)) (info : Dictionary String) :
    List (String × String) :=
  labels.filterMap fun (key, label) =>
    (Dictionary.find? key info).map fun value => (label, value)

def hardwareLabels : List (String × String) := [
  ("vendor", "Vendor"),
  ("product_name", "Product name"),
  ("serial_number", "Serial number")]

def softwareLabels : List (String × String) := [
  ("os_name", "OS name"),
  ("build_id", "Build")]

def showVersion : Handler := fun arguments => do
  if arguments.has 0 0 then
    let info ← Action.query (Query.getMap systemTable "switch_info" [])
    Action.info "Hardware:"
    Action.emit (.pairs (labelled hardwareLabels info))
  if arguments.has 0 1 then
    let info ← Action.query (Query.getMap systemTable "software_info" [])
    Action.info "Software:"
    Action.emit (.pairs (labelled softwareLabels info ++ [("Shell", shellVersion)]))
  return .proceed

/-- What a tab in the lines of the running configuration is shown as. -/
def configIndent : String := "    "

def runningConfig : Query (List String) := do
  let lldp ← Lldp.runningConfig
  let vlans ← Vlan.runningConfig
  let interfaces ← Interface.runningConfig
  return (lldp ++ vlans ++ interfaces).map (Text.replaceChar '\t' configIndent)

def showRunningConfig : Handler := fun _ => do
  let lines ← Action.query runningConfig
  if !lines.isEmpty then
    Action.info (String.intercalate "\n" lines)
  return .proceed

def rootCommands : List Command := [
  { path := ["quit"], help := "Quit shell", handler := quit },
  { path := ["configure"]
    help := "Configuration from CLI"
    handler := configure
    options := [(OptionGroup.oneOf [.keyword "terminal" "Configure from terminal"]).mandatory] }]

def globalCommands : List Command := [
  { path := ["exit"]
    help := "Exit current mode and down to previous mode"
    handler := exit },
  { path := ["pwc"], help := "Show current configuration context", handler := showContexts },
  { path := ["show", "version"]
    help := "Version information"
    handler := showVersion
    options := [
      (OptionGroup.oneOf [
        .keyword "hardware" "Hardware information",
        .keyword "software" "Software information"]).mandatory] },
  { path := ["show", "running-configuration"]
    help := "Current running configuration"
    handler := showRunningConfig }]

def register : Registration :=
  inTurn [
    Registry.registerAll rootMode rootCommands,
    fun registry =>
      (.ok (), registry.describe globalMode "show" "Show running system information"),
    Registry.registerAll globalMode globalCommands]

end SwitchShell.Feature.Shell
