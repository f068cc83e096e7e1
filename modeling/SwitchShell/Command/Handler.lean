import SwitchShell.Command.Context
import SwitchShell.Command.Debug
import SwitchShell.Command.Output
import SwitchShell.Grammar.Binding
import SwitchShell.Store.Query

namespace SwitchShell

/-- The bound values in the order of their words, and whether `no` stood in front. -/
structure Arguments where
  bindings : List Binding := []
  negated : Bool := false
deriving DecidableEq, Repr

namespace Arguments

/-- The value bound by a token of an option. -/
def get? (arguments : Arguments) (option slot : Nat) : Option Value :=
  (arguments.bindings.find? fun binding => binding.option == option && binding.slot == slot).map
    Binding.value

def has (arguments : Arguments) (option slot : Nat) : Bool :=
  (arguments.get? option slot).isSome

def values (arguments : Arguments) : List Value :=
  arguments.bindings.map Binding.value

def first? (arguments : Arguments) : Option Value :=
  arguments.values.head?

/-- The first value that is a number. -/
def integer? (arguments : Arguments) : Option Int :=
  arguments.values.findSome? Value.integer?

def word? (arguments : Arguments) (option slot : Nat) : Option String :=
  (arguments.get? option slot).bind Value.word?

end Arguments

/-- How the session goes on after a command. -/
inductive Outcome where
  /-- With the next line. -/
  | proceed
  /-- One mode further out; at the top level that is the end. -/
  | leave
  /-- Not at all. -/
  | terminate
deriving DecidableEq, Repr

structure Workspace where
  contexts : ContextStack := []
  debug : DebugKeys := {}
  output : List Output := []
deriving DecidableEq, Repr

/-- A step of a handler. -/
abbrev Action := ExceptT Fault (StateT Workspace Program)

abbrev Handler := Arguments → Action Outcome

namespace Action

def query (question : Query α) : Action α :=
  ExceptT.mk fun workspace => Program.andThen (fun answer => .done (answer, workspace)) question.run

def emit (output : Output) : Action Unit :=
  modify fun workspace => { workspace with output := workspace.output ++ [output] }

def info (text : String) : Action Unit :=
  emit (.info text)

def enter (context : Context) : Action Unit :=
  modify fun workspace => { workspace with contexts := context :: workspace.contexts }

/-- The object of the innermost context of a mode, which must have one. -/
def objectOf (mode : String) (missing : Refusal) : Action Value := do
  match (← get).contexts.object? mode with
  | some object => return object
  | none => throw (.refused missing)

def run (action : Action α) (workspace : Workspace) :
    Program (Except Fault α × Workspace) :=
  StateT.run (ExceptT.run action) workspace

end Action

end SwitchShell
