import SwitchShell.Proofs.Session.Configured

namespace SwitchShell

namespace Session

open Feature Configuration

def isIndented (line : String) : Bool :=
  Text.startsWith line " "

/-- The line, after an `exit` if it does not belong to the mode of an object. -/
def withExit (session : Session) (line : String) : List String :=
  if (session.mode = vlanMode ∨ session.mode = interfaceMode) ∧ isIndented line = false then
    ["exit", line]
  else [line]

/-- Dispatches the lines of a running configuration. -/
def restore (session : Session) : List String → Program (List Dispatch × Session)
  | [] => .done ([], session)
  | line :: lines =>
      Program.andThen
        (fun (first, later) =>
          Program.andThen (fun (others, last) => .done (first ++ others, last))
            (later.restore lines))
        (session.dispatchAll (session.withExit line))

variable {session middle later : Session} {memory between after : Memory} {line : String}
  {lines others : List String}

/-- The lines lead from one session and database to others, and show nothing. -/
def Leads (session : Session) (memory : Memory) (lines : List String) (later : Session)
    (after : Memory) : Prop :=
  ∃ dispatches, Program.run Memory.transact (session.restore lines) memory =
    ((dispatches, later), after) ∧ ∀ dispatch ∈ dispatches, dispatch.output = []

theorem Leads.nil (session : Session) (memory : Memory) : Leads session memory [] session memory :=
  ⟨[], rfl, List.forall_mem_nil _⟩

theorem Leads.append (first : Leads session memory lines middle between)
    (second : Leads middle between others later after) :
    Leads session memory (lines ++ others) later after := by
  induction lines generalizing session memory with
  | nil =>
      obtain ⟨_, ran, _⟩ := first
      cases ran
      exact second
  | cons line lines ih =>
      obtain ⟨dispatches, ran, silent⟩ := first
      rw [restore, Program.run_andThen] at ran
      generalize begun : Program.run Memory.transact
        (session.dispatchAll (session.withExit line)) memory = step at ran
      obtain ⟨⟨front, next⟩, reached⟩ := step
      simp only [Program.run_andThen] at ran
      generalize onward : Program.run Memory.transact (next.restore lines) reached = rest at ran
      obtain ⟨⟨back, last⟩, final⟩ := rest
      cases ran
      obtain ⟨silentFront, silentBack⟩ := List.forall_mem_append.mp silent
      obtain ⟨more, joined, silentMore⟩ := ih ⟨back, onward, silentBack⟩
      refine ⟨front ++ more, ?_, List.forall_mem_append.mpr ⟨silentFront, silentMore⟩⟩
      rw [List.cons_append, restore, Program.run_andThen, begun]
      simp only [Program.run_andThen, joined]
      rfl

/-- A new session that has entered contexts. -/
def inside (contexts : ContextStack) : Session :=
  { newSession with contexts }

section Requests

variable {stack entered : ContextStack} {config changed restored : Configuration}
  {request : Request} {invocation : Invocation} {last : Action Outcome}

/-- From every sound database with the one configuration the lines lead to one with
the other. -/
def Restores (stack : ContextStack) (config : Configuration) (lines : List String)
    (entered : ContextStack) (changed : Configuration) : Prop :=
  ∀ memory, Sound memory → ofMemory memory = config →
    ∃ after, Sound after ∧ ofMemory after = changed ∧
      Leads (inside stack) memory lines (inside entered) after

theorem Restores.nil (stack : ContextStack) (config : Configuration) :
    Restores stack config [] stack config :=
  fun memory sound same => ⟨memory, sound, same, .nil _ _⟩

theorem Restores.append {final : ContextStack} (first : Restores stack config lines entered changed)
    (second : Restores entered changed others final restored) :
    Restores stack config (lines ++ others) final restored := by
  intro memory sound same
  obtain ⟨between, sound', same', led⟩ := first memory sound same
  obtain ⟨after, sound'', same'', led'⟩ := second between sound' same'
  exact ⟨after, sound'', same'', led.append led'⟩

/-- The line makes the request, and its command enters the contexts. -/
def Commands (stack : ContextStack) (line : String) (request : Request)
    (entered : ContextStack) : Prop :=
  ∃ invocation last, (inside stack).prepare line = .done (.ok invocation) ∧
    (invocation.handler invocation.arguments).run { contexts := stack } =
      (Action.query request.query >>= fun _ => last).run { contexts := stack } ∧
    last.run { contexts := stack } = .done (.ok .proceed, { contexts := entered }) ∧
    ∀ counter, request ≠ .clear counter

theorem Commands.run (commands : Commands stack line request entered) (sound : Sound memory)
    (known : request.Known (ofMemory memory)) :
    Program.run Memory.transact ((inside stack).dispatch line) memory =
      (({}, inside entered), Request.effect memory request) := by
  obtain ⟨invocation, last, prepared, runs, ends, others⟩ := commands
  have handled : Program.run Memory.transact
      ((invocation.handler invocation.arguments).run { contexts := stack }) memory =
        ((.ok .proceed, { contexts := entered }), Request.effect memory request) := by
    rw [runs, Action.run_query_bind (sound.answer_query known others), ends]
    rfl
  exact run_of_handled prepared handled

end Requests

end Session

end SwitchShell
