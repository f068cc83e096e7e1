import SwitchShell.Command.Registry

namespace SwitchShell.Feature

def configMode : String := "config"

def vlanMode : String := "vlan"

def interfaceMode : String := "interface"

/-- A registration step; it may be refused. -/
abbrev Registration := Registry → Except Fault Unit × Registry

/-- Makes the steps in turn until one is refused. -/
def inTurn : List Registration → Registration
  | [], registry => (.ok (), registry)
  | step :: steps, registry =>
      match step registry with
      | (.ok (), registry) => inTurn steps registry
      | failed => failed

/-- The text that switches something on or off. -/
def adminText (up : Bool) : String :=
  if up then "up" else "down"

end SwitchShell.Feature
