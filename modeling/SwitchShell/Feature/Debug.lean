import SwitchShell.Feature.Mode

namespace SwitchShell.Feature.Debug

def setDebug : Handler := fun arguments => do
  match arguments.first?.bind Value.word? with
  | none => throw .incompleteCommand
  | some text =>
      match DebugKey.parse text with
      | .error fault => throw fault
      | .ok key =>
          modify fun workspace =>
            { workspace with debug := workspace.debug.set (!arguments.negated) key }
          return .proceed

def showDebug : Handler := fun _ => do
  let enabled := (← get).debug.enabledTexts
  if !enabled.isEmpty then
    Action.info (String.intercalate "\n" enabled)
  return .proceed

def setCommand : Command :=
  { path := ["debug"]
    help := "Enable debug output for subsystems"
    handler := setDebug
    negatable := true
    options := [
      (OptionGroup.oneOf [
        .choice [
          ("cli", "Command parsing and dispatch"),
          ("ovsdb", "Configuration database traffic")]]).mandatory] }

def showCommand : Command :=
  { path := ["show", "debug"]
    help := "Show current debug setting"
    handler := showDebug }

def register : Registration :=
  Registry.registerAll globalMode [setCommand, showCommand]

end SwitchShell.Feature.Debug
