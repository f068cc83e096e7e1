import SwitchShell.Command.Tree

namespace SwitchShell

structure Registry where
  trees : Dictionary Node := []

namespace Registry

/-- A registry with empty trees for the root and the global mode. -/
def empty : Registry :=
  { trees := Dictionary.ofPairs [(rootMode, Node.root), (globalMode, Node.root)] }

def tree? (registry : Registry) (mode : String) : Option Node :=
  Dictionary.find? mode registry.trees

/-- The tree of a mode; a mode without one has the empty tree. -/
def treeOrEmpty (registry : Registry) (mode : String) : Node :=
  (registry.tree? mode).getD Node.root

def setTree (registry : Registry) (mode : String) (tree : Node) : Registry :=
  { trees := registry.trees.insert mode tree }

/-- Adds a command to a mode.  The mode has a tree afterwards even if the
command is refused. -/
def register (mode : String) (command : Command) (registry : Registry) :
    Except Fault Unit × Registry :=
  let tree := registry.treeOrEmpty mode
  match tree.insert command with
  | .ok tree => (.ok (), registry.setTree mode tree)
  | .error fault => (.error fault, registry.setTree mode tree)

/-- Adds commands until one is refused. -/
def registerAll (mode : String) : List Command → Registry → Except Fault Unit × Registry
  | [], registry => (.ok (), registry)
  | command :: commands, registry =>
      match registry.register mode command with
      | (.ok (), registry) => registerAll mode commands registry
      | failed => failed

/-- Sets the help of a node, which need not be a command. -/
def describe (mode path help : String) (registry : Registry) : Registry :=
  registry.setTree mode ((registry.treeOrEmpty mode).describe path help)

/-- The trees in which a mode looks for commands. -/
def searchOrder (registry : Registry) (mode : String) : List Node :=
  (registry.tree? mode).toList ++
    (if mode = globalMode then [] else (registry.tree? globalMode).toList)

/-- What words lead to in a mode, or else in the global mode. -/
def candidates (registry : Registry) (mode : String) (words : List String) : List Match :=
  let found := ((registry.tree? mode).map fun tree => tree.find words).getD []
  if found.isEmpty ∧ mode ≠ globalMode then
    ((registry.tree? globalMode).map fun tree => tree.find words).getD []
  else found

def lookup (registry : Registry) (mode : String) (words : List String) : Except Fault Match :=
  match registry.candidates mode words with
  | [] => .error .noSuchCommand
  | [found] => .ok found
  | _ => .error .ambiguous

def dump (registry : Registry) : List String :=
  registry.trees.flatMap fun (mode, tree) =>
    ("[" ++ mode ++ "]") :: tree.dump.map fun line => Text.spaces 2 ++ line

end Registry

end SwitchShell
