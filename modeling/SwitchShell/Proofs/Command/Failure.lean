import SwitchShell.Proofs.Command.Faults
import SwitchShell.Proofs.Text.Lines

namespace SwitchShell

namespace Fault

variable {fault : Fault}

/-- The text of the fault has no line feed. -/
def IsLine (fault : Fault) : Prop :=
  '\n' ∉ fault.message.toList

instance : Decidable fault.IsLine :=
  inferInstanceAs (Decidable ('\n' ∉ fault.message.toList))

theorem message_ne_empty (fault : Fault) : fault.message ≠ "" := by
  unfold message
  split <;> simp

theorem IsLine.render (isLine : fault.IsLine) :
    (Output.error fault.message).render = [fault.message] := by
  have nonempty : fault.message.isEmpty = false := by simp [message_ne_empty]
  rw [Output.render, Output.textLines, if_neg (by rw [nonempty]; decide),
    Text.lines_of_notMem isLine (message_ne_empty fault)]

end Fault

/-- If the transaction fails then with a single line. -/
def Exchange.FailsInLine (exchange : Exchange) : Prop :=
  ∀ fault, exchange.answer = .error fault → fault.IsLine

namespace Query

variable {α : Type} {question : Query α}

/-- The question fails with a single line if the transactions do. -/
def FailsInLine (question : Query α) : Prop :=
  ∀ exchanges fault, Program.Yields question.run exchanges (.error fault) →
    (∀ exchange ∈ exchanges, exchange.FailsInLine) → fault.IsLine

theorem FailsWith.failsInLine (failsWith : question.FailsWith Fault.IsLine) :
    question.FailsInLine := fun _ fault yields each => failsWith.of_yields yields each fault rfl

end Query

/-- The output is not an error. -/
def Output.IsReport (output : Output) : Prop :=
  ∀ text, output ≠ .error text

namespace Workspace

variable {before middle after : Workspace}

/-- Nothing but reports is added to the output. -/
def Reports (before after : Workspace) : Prop :=
  ∃ more, after.output = before.output ++ more ∧ ∀ output ∈ more, output.IsReport

theorem reports_of_eq (same : after.output = before.output) : before.Reports after :=
  ⟨[], by rw [same, List.append_nil], by simp⟩

theorem Reports.trans (first : before.Reports middle) (second : middle.Reports after) :
    before.Reports after := by
  obtain ⟨more, shown, reports⟩ := first
  obtain ⟨others, later, alsoReports⟩ := second
  refine ⟨more ++ others, by rw [later, shown, List.append_assoc], fun output member => ?_⟩
  exact (List.mem_append.mp member).elim (reports output) (alsoReports output)

/-- Contexts and debug keys are the same. -/
def Alike (before after : Workspace) : Prop :=
  after.contexts = before.contexts ∧ after.debug = before.debug

theorem Alike.trans (first : before.Alike middle) (second : middle.Alike after) :
    before.Alike after :=
  ⟨second.1.trans first.1, second.2.trans first.2⟩

end Workspace

namespace Action

variable {α β : Type} {action : Action α} {next : α → Action β}

/-- The action fails with a single line if the transactions do. -/
def FailsInLine (exchanges : List Exchange) (result : Except Fault α) : Prop :=
  (∀ exchange ∈ exchanges, exchange.FailsInLine) → ∀ fault, result = .error fault → fault.IsLine

/-- The action only reports, and has changed neither the contexts nor the debug
keys if it fails. -/
def FailsCleanly (action : Action α) : Prop :=
  ∀ before exchanges result after, action.Ends before exchanges result after →
    before.Reports after ∧ FailsInLine exchanges result ∧
      ∀ fault, result = .error fault → before.Alike after

/-- The action only reports and changes neither the contexts nor the debug keys. -/
def Tidy (action : Action α) : Prop :=
  ∀ before exchanges result after, action.Ends before exchanges result after →
    before.Reports after ∧ FailsInLine exchanges result ∧ before.Alike after

theorem Tidy.failsCleanly (tidy : action.Tidy) : action.FailsCleanly := by
  intro before exchanges result after ends
  obtain ⟨reports, isLine, alike⟩ := tidy _ _ _ _ ends
  exact ⟨reports, isLine, fun _ _ => alike⟩

theorem failsInLine_ok (exchanges : List Exchange) (value : α) :
    FailsInLine exchanges (.ok value) := fun _ _ impossible => by contradiction

theorem tidy_pure (value : α) : Tidy (pure value) := by
  intro before exchanges result after ends
  obtain ⟨_, rfl, rfl⟩ := ends_pure_iff.mp ends
  exact ⟨Workspace.reports_of_eq rfl, failsInLine_ok _ _, rfl, rfl⟩

theorem tidy_throw {fault : Fault} (isLine : fault.IsLine) : Tidy (throw fault : Action α) := by
  intro before exchanges result after ends
  obtain ⟨_, rfl, rfl⟩ := ends_throw_iff.mp ends
  exact ⟨Workspace.reports_of_eq rfl, fun _ other same => by cases same; exact isLine, rfl, rfl⟩

theorem tidy_get : Tidy (get : Action Workspace) := by
  intro before exchanges result after ends
  obtain ⟨_, rfl, rfl⟩ := ends_get_iff.mp ends
  exact ⟨Workspace.reports_of_eq rfl, failsInLine_ok _ _, rfl, rfl⟩

theorem tidy_emit {output : Output} (report : output.IsReport) : Tidy (emit output) := by
  intro before exchanges result after ends
  obtain ⟨_, rfl, rfl⟩ := ends_modify_iff.mp ends
  exact ⟨⟨[output], rfl, List.forall_mem_singleton.mpr report⟩, failsInLine_ok _ _, rfl, rfl⟩

theorem tidy_query {question : Query α} (failsInLine : question.FailsInLine) :
    Tidy (query question) := by
  intro before exchanges result after ends
  obtain ⟨asked, rfl⟩ := ends_query_iff.mp ends
  refine ⟨Workspace.reports_of_eq rfl, fun each fault failed => ?_, rfl, rfl⟩
  exact failsInLine _ _ (failed ▸ asked) each

/-- An action may do as it likes as its last step, when it can fail no more. -/
theorem failsCleanly_last {change : Workspace → Workspace} (value : β)
    (shows : ∀ workspace, (change workspace).output = workspace.output) :
    FailsCleanly (do modify change; return value : Action β) := by
  intro before exchanges result after ends
  simp only [ends_bind_iff, ends_modify_iff, ends_pure_iff] at ends
  rcases ends with ⟨_, _, _, _, _, ⟨_, _, rfl⟩, _, rfl, rfl⟩ | ⟨_, ⟨_, impossible, _⟩, _⟩
  · exact ⟨Workspace.reports_of_eq (shows before), failsInLine_ok _ _, fun _ _ => by contradiction⟩
  · contradiction

theorem Tidy.before (first : action.Tidy) (others : ∀ value, (next value).FailsCleanly) :
    (action >>= next).FailsCleanly := by
  intro before exchanges result after ends
  rcases ends_bind_iff.mp ends with ⟨_, _, value, middle, rfl, begun, ended⟩ | ⟨fault, failed, rfl⟩
  · obtain ⟨reports, _, alike⟩ := first _ _ _ _ begun
    obtain ⟨alsoReports, isLine, stillAlike⟩ := others value _ _ _ _ ended
    refine ⟨reports.trans alsoReports, fun each => isLine fun exchange member => ?_,
      fun fault failed => alike.trans (stillAlike fault failed)⟩
    exact each exchange (List.mem_append_right _ member)
  · obtain ⟨reports, isLine, alike⟩ := first _ _ _ _ failed
    refine ⟨reports, fun each other same => ?_, fun _ _ => alike⟩
    cases same
    exact isLine each fault rfl

theorem Tidy.bind (first : action.Tidy) (others : ∀ value, (next value).Tidy) :
    (action >>= next).Tidy := by
  intro before exchanges result after ends
  obtain ⟨reports, isLine, _⟩ :=
    first.before (fun value => (others value).failsCleanly) _ _ _ _ ends
  refine ⟨reports, isLine, ?_⟩
  rcases ends_bind_iff.mp ends with ⟨_, _, value, middle, rfl, begun, ended⟩ | ⟨fault, failed, rfl⟩
  · exact (first _ _ _ _ begun).2.2.trans (others value _ _ _ _ ended).2.2
  · exact (first _ _ _ _ failed).2.2

theorem Tidy.andThen {action : Action Unit} {next : Unit → Action β} (first : action.Tidy)
    (second : (next ()).Tidy) : (action >>= next).Tidy :=
  first.bind fun _ => second

theorem tidy_forM_emit {outputs : List Output} (reports : ∀ output ∈ outputs, output.IsReport) :
    Tidy (outputs.forM emit) := by
  induction outputs with
  | nil => exact tidy_pure ()
  | cons output outputs ih =>
      obtain ⟨report, others⟩ := List.forall_mem_cons.mp reports
      exact (tidy_emit report).andThen (ih others)

theorem tidy_objectOf (mode : String) {missing : Refusal} (isLine : (Fault.refused missing).IsLine) :
    Tidy (objectOf mode missing) := by
  refine tidy_get.bind fun workspace => ?_
  split
  · exact tidy_pure _
  · exact tidy_throw isLine

end Action

end SwitchShell
