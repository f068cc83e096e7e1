import SwitchShell.Proofs.Session.Settings

namespace SwitchShell

namespace Session

open Feature Configuration OptionGroup

variable {session : Session} {memory : Memory} {stack : ContextStack} {words : List String}
  {negated : Bool} {found : Match} {handler : Handler} {arguments : Arguments} {name : String}

end Session

end SwitchShell
