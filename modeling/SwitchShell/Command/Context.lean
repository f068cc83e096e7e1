import SwitchShell.Grammar.Token

namespace SwitchShell

/-- The mode of a session that has entered none. -/
def rootMode : String := "root"

/-- The mode whose commands are available in all others. -/
def globalMode : String := "global"

/-- A mode, with the object it configures if there is one. -/
structure Context where
  mode : String
  object : Option Value := none
deriving DecidableEq, Repr

def Context.label (context : Context) : String :=
  match context.object with
  | some object => context.mode ++ "-" ++ object.text
  | none => context.mode

/-- The contexts of a session.  The innermost comes first and selects the commands. -/
abbrev ContextStack := List Context

namespace ContextStack

def activeMode : ContextStack → String
  | [] => rootMode
  | context :: _ => context.mode

/-- The object of the innermost context of a mode. -/
def object? (mode : String) (stack : ContextStack) : Option Value :=
  (stack.find? fun context => context.mode == mode).bind Context.object

def prompt (hostname : String) : ContextStack → String
  | [] => hostname ++ "> "
  | context :: _ => hostname ++ "(" ++ context.label ++ ")# "

/-- The labels from the outermost context to the innermost. -/
def labels (stack : ContextStack) : List String :=
  stack.reverse.map Context.label

end ContextStack

end SwitchShell
