import SwitchShell.Command.Registry

namespace SwitchShell.Help

/-- All commands of a mode and of the global mode. -/
def listing (registry : Registry) (mode : String) : Output :=
  let nodes := (registry.searchOrder mode).flatMap Node.concrete
  .help (HelpItem.distinct (nodes.map Node.nameItem))

/-- The description of a node and the commands below it. -/
def describeNode (node : Node) : List Output :=
  let below := Node.concreteAll node.children
  (if node.isConcrete then [.info node.help, .info ("Usage: " ++ node.usage)]
    else if node.help.isEmpty then [] else [.info node.help]) ++
  (if below.isEmpty then [] else [.help (below.map Node.nameItem)])

/-- The description of what words lead to; all commands without words. -/
def describe (registry : Registry) (mode : String) (words : List String) :
    Except Fault (List Output) :=
  let words :=
    match words with
    | "no" :: rest => rest
    | other => other
  if words.isEmpty then .ok [listing registry mode]
  else
    match registry.lookup mode words with
    | .ok found => .ok (describeNode found.node)
    | .error .noSuchCommand => .error .noHelpAvailable
    | .error fault => .error fault

end SwitchShell.Help
