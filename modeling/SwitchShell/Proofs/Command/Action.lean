import SwitchShell.Proofs.Store.Exchange

namespace SwitchShell

namespace Action

variable {α β : Type} {action : Action α} {next : α → Action β} {exchanges : List Exchange}
  {before after : Workspace}

/-- The action may end with a result and a workspace after some exchanges. -/
def Ends (action : Action α) (before : Workspace) (exchanges : List Exchange)
    (result : Except Fault α) (after : Workspace) : Prop :=
  Program.Yields (action.run before) exchanges (result, after)

/-- How an action goes on after a result. -/
def continued (next : α → Action β) :
    Except Fault α × Workspace → Program (Except Fault β × Workspace)
  | (.ok value, workspace) => (next value).run workspace
  | (.error fault, workspace) => .done (.error fault, workspace)

theorem run_bind (workspace : Workspace) :
    (action >>= next).run workspace = (action.run workspace).andThen (continued next) := by
  change Program.andThen _ _ = _
  congr 1
  funext ⟨result, later⟩
  cases result <;> rfl

@[simp] theorem ends_pure_iff {value : α} {result : Except Fault α} :
    (pure value : Action α).Ends before exchanges result after ↔
      exchanges = [] ∧ result = .ok value ∧ after = before := by
  change Program.Yields (.done (Except.ok value, before)) _ _ ↔ _
  simp

@[simp] theorem ends_throw_iff {fault : Fault} {result : Except Fault α} :
    (throw fault : Action α).Ends before exchanges result after ↔
      exchanges = [] ∧ result = .error fault ∧ after = before := by
  change Program.Yields (.done (Except.error fault, before)) _ _ ↔ _
  simp

@[simp] theorem ends_get_iff {result : Except Fault Workspace} :
    (get : Action Workspace).Ends before exchanges result after ↔
      exchanges = [] ∧ result = .ok before ∧ after = before := by
  change Program.Yields (.done (Except.ok before, before)) _ _ ↔ _
  simp

@[simp] theorem ends_modify_iff {change : Workspace → Workspace} {result : Except Fault Unit} :
    (modify change : Action Unit).Ends before exchanges result after ↔
      exchanges = [] ∧ result = .ok () ∧ after = change before := by
  change Program.Yields (.done (Except.ok (), change before)) _ _ ↔ _
  simp

@[simp] theorem ends_enter_iff {context : Context} {result : Except Fault Unit} :
    (enter context).Ends before exchanges result after ↔
      exchanges = [] ∧ result = .ok () ∧
        after = { before with contexts := context :: before.contexts } :=
  ends_modify_iff

/-- Questions leave the workspace as it is. -/
@[simp] theorem ends_query_iff {question : Query α} {result : Except Fault α} :
    (query question).Ends before exchanges result after ↔
      Program.Yields question.run exchanges result ∧ after = before := by
  change Program.Yields (Program.andThen _ question.run) _ _ ↔ _
  rw [Program.yields_andThen_iff]
  constructor
  · rintro ⟨first, rest, answer, rfl, asked, ended⟩
    obtain ⟨rfl, same⟩ := Program.yields_done_iff.mp ended
    cases same
    rw [List.append_nil]
    exact ⟨asked, rfl⟩
  · rintro ⟨asked, rfl⟩
    exact ⟨exchanges, [], result, (List.append_nil _).symm, asked, .done _⟩

theorem run_query {σ : Type} {backend : Backend σ} {question : Query α} {state later : σ}
    {result : Except Fault α} (answered : question.answer backend state = (result, later))
    (workspace : Workspace) :
    Program.run backend ((query question).run workspace) state = ((result, workspace), later) := by
  change Program.run backend (Program.andThen _ question.run) state = _
  rw [Program.run_andThen, show Program.run backend question.run state = _ from answered]
  rfl

/-- An answered question leaves the rest to be run. -/
theorem run_query_bind {σ : Type} {backend : Backend σ} {question : Query α} {state later : σ}
    {value : α} (answered : question.answer backend state = (.ok value, later))
    (workspace : Workspace) (next : α → Action β) :
    Program.run backend ((query question >>= next).run workspace) state =
      Program.run backend ((next value).run workspace) later := by
  rw [run_bind, Program.run_andThen, run_query answered]
  rfl

theorem run_query_bind_of_error {σ : Type} {backend : Backend σ} {question : Query α}
    {state later : σ} {fault : Fault} (failed : question.answer backend state = (.error fault, later))
    (workspace : Workspace) (next : α → Action β) :
    Program.run backend ((query question >>= next).run workspace) state =
      ((.error fault, workspace), later) := by
  rw [run_bind, Program.run_andThen, run_query failed]
  rfl

/-- An action after another one runs only if that one succeeds. -/
theorem ends_bind_iff {result : Except Fault β} :
    (action >>= next).Ends before exchanges result after ↔
      (∃ first rest value middle, exchanges = first ++ rest ∧
        action.Ends before first (.ok value) middle ∧
        (next value).Ends middle rest result after) ∨
      (∃ fault, action.Ends before exchanges (.error fault) after ∧ result = .error fault) := by
  unfold Ends
  rw [run_bind, Program.yields_andThen_iff]
  constructor
  · rintro ⟨first, rest, ⟨ran, middle⟩, rfl, begun, ended⟩
    cases ran with
    | ok value => exact .inl ⟨first, rest, value, middle, rfl, begun, ended⟩
    | error fault =>
        obtain ⟨rfl, same⟩ := Program.yields_done_iff.mp ended
        cases same
        rw [List.append_nil]
        exact .inr ⟨fault, begun, rfl⟩
  · rintro (⟨first, rest, value, middle, rfl, begun, ended⟩ | ⟨fault, begun, rfl⟩)
    · exact ⟨first, rest, (.ok value, middle), rfl, begun, ended⟩
    · exact ⟨exchanges, [], (.error fault, after), (List.append_nil _).symm, begun, .done _⟩

/-- The action leaves the contexts as they are, and every value it returns is
one of the allowed ones. -/
def Stays (allowed : α → Prop) (action : Action α) : Prop :=
  ∀ before exchanges result after, action.Ends before exchanges result after →
    after.contexts = before.contexts ∧ ∀ value, result = .ok value → allowed value

variable {allowed : α → Prop} {permitted : β → Prop}

theorem stays_pure {value : α} (fine : allowed value) : Stays allowed (pure value) := by
  intro before exchanges result after ends
  obtain ⟨_, rfl, rfl⟩ := ends_pure_iff.mp ends
  refine ⟨rfl, fun other same => ?_⟩
  cases same
  exact fine

theorem stays_throw (fault : Fault) : Stays allowed (throw fault) := by
  intro before exchanges result after ends
  obtain ⟨_, rfl, rfl⟩ := ends_throw_iff.mp ends
  exact ⟨rfl, fun value same => by contradiction⟩

theorem stays_get : Stays (fun _ => True) (get : Action Workspace) := by
  intro before exchanges result after ends
  obtain ⟨_, rfl, rfl⟩ := ends_get_iff.mp ends
  exact ⟨rfl, fun _ _ => trivial⟩

theorem stays_modify {change : Workspace → Workspace}
    (keeps : ∀ workspace, (change workspace).contexts = workspace.contexts) :
    Stays (fun _ => True) (modify change : Action Unit) := by
  intro before exchanges result after ends
  obtain ⟨_, rfl, rfl⟩ := ends_modify_iff.mp ends
  exact ⟨keeps before, fun _ _ => trivial⟩

theorem stays_emit (output : Output) : Stays (fun _ => True) (emit output) :=
  stays_modify fun _ => rfl

theorem stays_query (question : Query α) : Stays (fun _ => True) (query question) := by
  intro before exchanges result after ends
  obtain ⟨_, rfl⟩ := ends_query_iff.mp ends
  exact ⟨rfl, fun _ _ => trivial⟩

theorem Stays.bind (first : Stays allowed action)
    (second : ∀ value, allowed value → Stays permitted (next value)) :
    Stays permitted (action >>= next) := by
  intro before exchanges result after ends
  rcases ends_bind_iff.mp ends with ⟨_, _, value, middle, rfl, begun, ended⟩ | ⟨fault, failed, rfl⟩
  · obtain ⟨kept, values⟩ := first _ _ _ _ begun
    obtain ⟨alsoKept, results⟩ := second value (values value rfl) _ _ _ _ ended
    exact ⟨alsoKept.trans kept, results⟩
  · exact ⟨(first _ _ _ _ failed).1, fun value same => by contradiction⟩

theorem Stays.andThen {next : Unit → Action β} {action : Action Unit}
    (first : Stays (fun _ => True) action) (second : Stays permitted (next ())) :
    Stays permitted (action >>= next) :=
  first.bind fun _ _ => second

theorem stays_forM_emit (outputs : List Output) :
    Stays (fun _ => True) (outputs.forM emit) := by
  induction outputs with
  | nil => exact stays_pure trivial
  | cons output outputs ih => exact (stays_emit output).andThen ih

theorem stays_objectOf (mode : String) (missing : Refusal) :
    Stays (fun _ => True) (objectOf mode missing) := by
  refine stays_get.bind fun workspace _ => ?_
  split
  · exact stays_pure trivial
  · exact stays_throw _

end Action

end SwitchShell
