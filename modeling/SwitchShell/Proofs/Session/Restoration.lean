import SwitchShell.Proofs.Session.Commands

namespace SwitchShell

/-! A running configuration restores what it shows.

Its lines are those of settings, of VLANs and of interfaces.  Each part makes its
share of the configuration and leaves the rest as it is.
-/

namespace Session

open Feature Configuration

variable {memory : Memory} {stack : ContextStack} {config target : Configuration}
  {line name : String} {lines later : List String} {setting : Setting}

/-- A new session on the initial database in which the lines are dispatched in
configuration mode. -/
def restored (lines : List String) : (List Dispatch × Session) × Memory :=
  Program.run Memory.transact (newSession.restore ("configure terminal" :: lines)) Memory.initial

end Session

end SwitchShell
