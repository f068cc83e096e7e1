import SwitchShell.Fault

namespace SwitchShell

inductive DebugKey where
  | cli
  | ovsdb
deriving DecidableEq, Repr

namespace DebugKey

def all : List DebugKey := [.cli, .ovsdb]

def text : DebugKey → String
  | .cli => "cli"
  | .ovsdb => "ovsdb"

def ofText? (text : String) : Option DebugKey :=
  all.find? fun key => key.text == text

/-- The key of that name, which must be a known one. -/
def parse (text : String) : Except Fault DebugKey :=
  match ofText? text with
  | some key => .ok key
  | none => .error (.badOption text)

end DebugKey

/-- The enabled keys, and the log filter they are added to. -/
structure DebugKeys where
  base : String := ""
  cli : Bool := false
  ovsdb : Bool := false
deriving DecidableEq, Repr

namespace DebugKeys

def isEnabled (keys : DebugKeys) : DebugKey → Bool
  | .cli => keys.cli
  | .ovsdb => keys.ovsdb

def set (keys : DebugKeys) (value : Bool) : DebugKey → DebugKeys
  | .cli => { keys with cli := value }
  | .ovsdb => { keys with ovsdb := value }

/-- The enabled keys in alphabetical order. -/
def enabled (keys : DebugKeys) : List DebugKey :=
  DebugKey.all.filter keys.isEnabled

def enabledTexts (keys : DebugKeys) : List String :=
  keys.enabled.map DebugKey.text

/-- The base filter, if there is one, and a directive for each enabled key. -/
def directives (keys : DebugKeys) : String :=
  let base := if keys.base.isEmpty then [] else [keys.base]
  String.intercalate "," (base ++ keys.enabledTexts.map fun key => key ++ "=debug")

end DebugKeys

end SwitchShell
