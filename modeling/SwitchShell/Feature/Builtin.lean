import SwitchShell.Feature.Debug
import SwitchShell.Feature.Shell

namespace SwitchShell.Feature

def registerBuiltin : Registration :=
  inTurn [Shell.register, Debug.register, Vlan.register, Interface.register, Lldp.register]

def builtin : Registry :=
  (registerBuiltin Registry.empty).2

end SwitchShell.Feature
