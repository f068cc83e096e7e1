import SwitchShell.Proofs.Session.Serializable

namespace SwitchShell

namespace Session

open Feature Configuration

variable {session : Session} {memory : Memory} {line : String}

/-- A session with the built-in commands, in one of its modes. -/
structure Standing (session : Session) : Prop where
  builtin : session.registry = Feature.builtin
  shape : ∃ turns, Shape turns session.contexts

/-- The session and the database after lines, from a new session on. -/
def played (lines : List String) : Session × Memory :=
  let ran := Program.run Memory.transact (newSession.dispatchAll lines) Memory.initial
  (ran.1.2, ran.2)

/-- The lines of the running configuration, as a session shows it. -/
def printed (session : Session) (memory : Memory) : List String :=
  (Program.run Memory.transact (session.dispatch "show running-configuration") memory).1.1.lines

/-- A line whose command needs no names is left to its handler. -/
theorem run_of_prepare {invocation : Invocation}
    (prepared : session.prepare line = .done (.ok invocation)) :
    Program.run Memory.transact (session.dispatch line) memory =
      Program.run Memory.transact (session.invoke invocation) memory := by
  rw [dispatch_eq_andThen, prepared]
  rfl

/-- Such a line leads to what its handler leaves. -/
theorem run_of_handled {invocation : Invocation} {result : Except Fault Outcome}
    {workspace : Workspace} {after : Memory}
    (prepared : session.prepare line = .done (.ok invocation))
    (handled : Program.run Memory.transact ((invocation.handler invocation.arguments).run
      { contexts := session.contexts, debug := session.debug }) memory =
        ((result, workspace), after)) :
    Program.run Memory.transact (session.dispatch line) memory =
      (session.conclude result workspace, after) := by
  rw [run_of_prepare prepared, invoke, Program.run_andThen, handled]
  rfl

end Session

end SwitchShell
