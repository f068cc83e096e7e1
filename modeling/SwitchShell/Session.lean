import SwitchShell.Completion.Position
import SwitchShell.Help

namespace SwitchShell

/-- Lines are run, completed and explained in the current mode of a session. -/
structure Session where
  registry : Registry
  contexts : ContextStack := []
  debug : DebugKeys := {}
  hostname : String

/-- What a line leads to: output, and perhaps the end of the session. -/
structure Dispatch where
  output : List Output := []
  terminate : Bool := false
  /-- What the program broke off at. -/
  crash : Option Fault := none
deriving DecidableEq, Repr

/-- A command with its arguments, ready to run. -/
structure Invocation where
  handler : Handler
  arguments : Arguments

def Dispatch.lines (dispatch : Dispatch) : List String :=
  dispatch.output.flatMap Output.render

/-- Shows a fault after the output there is, unless the program breaks off at it. -/
def Dispatch.failed (output : List Output) (fault : Fault) : Dispatch :=
  if fault.isFatal then { crash := some fault }
  else { output := output ++ [.error fault.message] }

def Dispatch.ofFault (fault : Fault) : Dispatch :=
  Dispatch.failed [] fault

theorem Dispatch.failed_eq (output : List Output) {fault : Fault} (told : fault.isFatal = false) :
    Dispatch.failed output fault = { output := output ++ [.error fault.message] } := by
  simp [failed, told]

theorem Dispatch.mem_or_eq_of_mem_failed {output : List Output} {fault : Fault} {item : Output}
    (shown : item ∈ (Dispatch.failed output fault).output) :
    item ∈ output ∨ item = .error fault.message := by
  unfold failed at shown
  split at shown
  · contradiction
  · simpa using shown

@[simp] theorem Dispatch.terminate_failed (output : List Output) (fault : Fault) :
    (Dispatch.failed output fault).terminate = false := by
  unfold failed
  split <;> rfl

@[simp] theorem Dispatch.terminate_ofFault (fault : Fault) :
    (Dispatch.ofFault fault).terminate = false :=
  terminate_failed [] fault

namespace Session

def mode (session : Session) : String :=
  ContextStack.activeMode session.contexts

def prompt (session : Session) : String :=
  ContextStack.prompt session.hostname session.contexts

/-- The names that options depend on; without such options the database is not asked. -/
def fetchNames (options : List OptionGroup) : Query Names :=
  match Completion.nameKinds options with
  | [] => return {}
  | kinds => Query.names kinds

def bind (found : Match) (words : List String) (negated : Bool) (names : Names) :
    Except Fault Arguments := do
  let bindings ← Binding.ofWords names found.node.options (words.drop found.consumed)
  Binding.checkRequired found.node.options bindings
  if negated && !found.node.negatable then throw .noSuchCommand
  return { bindings, negated }

/-- Finds the command that words stand for and binds its options. -/
def resolve (registry : Registry) (mode : String) (negated : Bool) (words : List String) :
    Query Invocation := do
  let found ← ExceptT.mk (pure (registry.lookup mode words))
  match found.node.handler with
  | none => throw .incompleteCommand
  | some handler =>
      let names ← fetchNames found.node.options
      let arguments ← ExceptT.mk (pure (bind found words negated names))
      return { handler, arguments }

/-- The session after a handler has finished. -/
def conclude (session : Session) (result : Except Fault Outcome) (workspace : Workspace) :
    Dispatch × Session :=
  let after := { session with contexts := workspace.contexts, debug := workspace.debug }
  match result with
  | .ok .proceed => ({ output := workspace.output }, after)
  | .ok .leave =>
      ({ output := workspace.output, terminate := workspace.contexts.isEmpty },
        { after with contexts := workspace.contexts.tail })
  | .ok .terminate => ({ output := workspace.output, terminate := true }, after)
  | .error fault => (Dispatch.failed workspace.output fault, after)

def invoke (session : Session) (invocation : Invocation) : Program (Dispatch × Session) :=
  Program.andThen (fun (result, workspace) => .done (session.conclude result workspace))
    ((invocation.handler invocation.arguments).run
      { contexts := session.contexts, debug := session.debug })

def runWords (session : Session) (negated : Bool) (words : List String) :
    Program (Dispatch × Session) :=
  Program.andThen
    (fun
      | .ok invocation => session.invoke invocation
      | .error fault => .done (Dispatch.ofFault fault, session))
    (resolve session.registry session.mode negated words).run

def help (session : Session) (words : List String) : Except Fault (List Output) :=
  Help.describe session.registry session.mode words

/-- Runs one line.  A fault becomes one line of output or breaks the program off. -/
def dispatch (session : Session) (line : String) : Program (Dispatch × Session) :=
  match Text.words line with
  | [] => .done ({}, session)
  | "help" :: words =>
      match session.help words with
      | .ok output => .done ({ output }, session)
      | .error fault => .done (Dispatch.ofFault fault, session)
  | "no" :: words => session.runWords true words
  | words => session.runWords false words

def complete (session : Session) (line : String) : Query Completion := do
  let request := Completion.Request.parse line
  let position := Completion.Position.locate session.registry session.mode request.words
  let names ← match position.nameKinds with
    | [] => pure {}
    | kinds => Query.names kinds
  ExceptT.mk (pure (Completion.ofRequest session.registry session.mode names request position))

def dump (session : Session) : List String :=
  session.registry.dump

end Session

end SwitchShell
