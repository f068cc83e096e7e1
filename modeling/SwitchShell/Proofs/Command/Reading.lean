import SwitchShell.Proofs.Command.Action

namespace SwitchShell

namespace Exchange

/-- Every operation of the transaction is a read. -/
def IsRead (exchange : Exchange) : Prop :=
  ∀ operation ∈ exchange.operations, operation.isRead = true

end Exchange

namespace Program

variable {α β : Type} {exchanges : List Exchange}

def OnlyReads : Program α → Prop
  | .done _ => True
  | .transact operations next =>
      (∀ operation ∈ operations, operation.isRead = true) ∧ ∀ answer, OnlyReads (next answer)

theorem OnlyReads.andThen {program : Program α} {next : α → Program β}
    (first : program.OnlyReads) (others : ∀ value, (next value).OnlyReads) :
    (program.andThen next).OnlyReads := by
  induction program with
  | done value => exact others value
  | transact operations continuation ih => exact ⟨first.1, fun answer => ih answer (first.2 answer)⟩

/-- It is enough to look at the values that the program may come to. -/
theorem OnlyReads.andThen_of_yields {program : Program α} {next : α → Program β}
    (first : program.OnlyReads)
    (others : ∀ exchanges value, Yields program exchanges value → (next value).OnlyReads) :
    (program.andThen next).OnlyReads := by
  induction program with
  | done value => exact others [] value (.done value)
  | transact operations continuation ih =>
      refine ⟨first.1, fun answer => ih answer (first.2 answer) fun exchanges value yields => ?_⟩
      exact others _ value (.transact answer yields)

theorem OnlyReads.isRead {program : Program α} {value : α} (reads : program.OnlyReads)
    (yields : Yields program exchanges value) : ∀ exchange ∈ exchanges, exchange.IsRead := by
  induction yields with
  | done value => simp
  | transact answer later ih =>
      exact List.forall_mem_cons.mpr ⟨reads.1, ih (reads.2 answer)⟩

end Program

namespace Query

variable {α β : Type}

/-- The question only reads. -/
def OnlyReads (query : Query α) : Prop :=
  Program.OnlyReads query.run

theorem onlyReads_of (result : Except Fault α) : OnlyReads (ExceptT.mk (pure result)) := trivial

theorem OnlyReads.bind {query : Query α} {next : α → Query β} (first : query.OnlyReads)
    (others : ∀ value, (next value).OnlyReads) : (query >>= next).OnlyReads := by
  refine Program.OnlyReads.andThen first fun result => ?_
  cases result with
  | ok value => exact others value
  | error fault => exact onlyReads_of (.error fault)

theorem onlyReads_pure (value : α) : OnlyReads (pure value) := onlyReads_of (.ok value)

theorem onlyReads_throw (fault : Fault) : OnlyReads (throw fault : Query α) :=
  onlyReads_of (.error fault)

theorem onlyReads_select (table : String) (conditions : List Condition)
    (columns : Option (List String)) : (select table conditions columns).OnlyReads := by
  refine OnlyReads.bind ⟨?_, fun _ => trivial⟩ fun results => onlyReads_pure _
  exact List.forall_mem_singleton.mpr rfl

theorem onlyReads_getMap (table column : String) (conditions : List Condition) :
    (getMap table column conditions).OnlyReads :=
  (onlyReads_select _ _ _).bind fun _ => onlyReads_pure _

theorem onlyReads_names (kinds : List NameKind) : (names kinds).OnlyReads := by
  induction kinds with
  | nil => exact onlyReads_pure _
  | cons kind kinds ih =>
      cases kind
      refine OnlyReads.bind ((onlyReads_select _ _ _).bind fun _ => onlyReads_pure _) fun _ => ?_
      exact ih.bind fun _ => onlyReads_pure _

end Query

namespace Action

variable {α β : Type} {action : Action α} {next : α → Action β}

/-- The action only reads, in whatever workspace. -/
def OnlyReads (action : Action α) : Prop :=
  ∀ workspace, (action.run workspace).OnlyReads

theorem onlyReads_pure (value : α) : OnlyReads (pure value) := fun _ => trivial

theorem onlyReads_throw (fault : Fault) : OnlyReads (throw fault : Action α) := fun _ => trivial

theorem onlyReads_get : OnlyReads (get : Action Workspace) := fun _ => trivial

theorem onlyReads_modify (change : Workspace → Workspace) :
    OnlyReads (modify change : Action Unit) := fun _ => trivial

theorem onlyReads_emit (output : Output) : OnlyReads (emit output) := onlyReads_modify _

theorem onlyReads_enter (context : Context) : OnlyReads (enter context) := onlyReads_modify _

theorem onlyReads_query {question : Query α} (reads : question.OnlyReads) :
    OnlyReads (query question) := fun _ =>
  Program.OnlyReads.andThen reads fun _ => trivial

theorem OnlyReads.bind (first : action.OnlyReads) (others : ∀ value, (next value).OnlyReads) :
    (action >>= next).OnlyReads := by
  intro workspace
  rw [run_bind]
  refine (first workspace).andThen fun ⟨result, later⟩ => ?_
  cases result with
  | ok value => exact others value later
  | error fault => trivial

theorem OnlyReads.andThen {action : Action Unit} {next : Unit → Action β}
    (first : action.OnlyReads) (second : (next ()).OnlyReads) : (action >>= next).OnlyReads :=
  first.bind fun _ => second

theorem onlyReads_forM_emit (outputs : List Output) : OnlyReads (outputs.forM emit) := by
  induction outputs with
  | nil => exact onlyReads_pure _
  | cons output outputs ih => exact (onlyReads_emit output).andThen ih

end Action

end SwitchShell
