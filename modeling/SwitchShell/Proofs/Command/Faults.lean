import SwitchShell.Proofs.Command.Action

namespace SwitchShell

variable {α β : Type} {kind : Fault → Prop} {exchanges : List Exchange}

/-- If this is a fault then one of the kind. -/
def FaultIn (kind : Fault → Prop) (result : Except Fault α) : Prop :=
  ∀ fault, result = .error fault → kind fault

theorem faultIn_ok (value : α) : FaultIn kind (.ok value) := fun _ impossible => by contradiction

theorem faultIn_error {fault : Fault} (own : kind fault) :
    FaultIn kind (.error fault : Except Fault α) := fun other same => by
  cases same
  exact own

namespace Program

variable {goal : α → Prop} {between : α → Prop} {last : β → Prop} {program : Program α}
  {next : α → Program β}

/-- If transactions only fail with faults of the kind, the program comes to the goal. -/
def Ensures (kind : Fault → Prop) (goal : α → Prop) : Program α → Prop
  | .done value => goal value
  | .transact _ next => ∀ answer, FaultIn kind answer → Ensures kind goal (next answer)

theorem Ensures.andThen (first : Ensures kind between program)
    (others : ∀ value, between value → Ensures kind last (next value)) :
    Ensures kind last (program.andThen next) := by
  induction program with
  | done value => exact others value first
  | transact operations continuation ih =>
      exact fun answer allowed => ih answer (first answer allowed)

theorem Ensures.of_yields {value : α} (ensures : Ensures kind goal program)
    (yields : Yields program exchanges value)
    (each : ∀ exchange ∈ exchanges, FaultIn kind exchange.answer) : goal value := by
  induction yields with
  | done value => exact ensures
  | transact answer later ih =>
      obtain ⟨first, others⟩ := List.forall_mem_cons.mp each
      exact ih (ensures answer first) others

end Program

namespace Query

variable {question : Query α} {next : α → Query β}

def FailsWith (kind : Fault → Prop) (question : Query α) : Prop :=
  Program.Ensures kind (FaultIn kind) question.run

theorem failsWith_of {result : Except Fault α} (own : FaultIn kind result) :
    FailsWith kind (ExceptT.mk (pure result)) := own

theorem failsWith_pure (value : α) : FailsWith kind (pure value) := faultIn_ok value

theorem failsWith_throw {fault : Fault} (own : kind fault) :
    FailsWith kind (throw fault : Query α) := faultIn_error own

theorem failsWith_transact (operations : List Operation) :
    FailsWith kind (transact operations) := fun _ allowed => allowed

theorem FailsWith.bind (first : question.FailsWith kind)
    (others : ∀ value, (next value).FailsWith kind) : (question >>= next).FailsWith kind := by
  refine Program.Ensures.andThen first fun result own => ?_
  cases result with
  | ok value => exact others value
  | error fault => exact faultIn_error (own fault rfl)

theorem FailsWith.map (first : question.FailsWith kind) (change : α → β) :
    (question >>= fun value => pure (change value)).FailsWith kind :=
  first.bind fun _ => failsWith_pure _

theorem failsWith_select (table : String) (conditions : List Condition)
    (columns : Option (List String)) : (select table conditions columns).FailsWith kind :=
  (failsWith_transact _).map _

theorem failsWith_getMap (table column : String) (conditions : List Condition) :
    (getMap table column conditions).FailsWith kind :=
  (failsWith_select _ _ _).map _

theorem failsWith_insert (table : String) (row : Row) : (insert table row).FailsWith kind :=
  (failsWith_transact _).map _

theorem failsWith_update (table : String) (conditions : List Condition) (row : Row) :
    (update table conditions row).FailsWith kind :=
  (failsWith_transact _).map _

theorem failsWith_mutate (table : String) (conditions : List Condition)
    (mutations : List Mutation) : (mutate table conditions mutations).FailsWith kind :=
  (failsWith_transact _).map _

theorem failsWith_mapSetKey (table column key value : String) (conditions : List Condition) :
    (mapSetKey table column key value conditions).FailsWith kind :=
  (failsWith_mutate _ _ _).map _

theorem failsWith_mapDeleteKey (table column key : String) (conditions : List Condition) :
    (mapDeleteKey table column key conditions).FailsWith kind :=
  (failsWith_mutate _ _ _).map _

theorem failsWith_names (kinds : List NameKind) : (names kinds).FailsWith kind := by
  induction kinds with
  | nil => exact failsWith_pure _
  | cons family kinds ih =>
      cases family
      exact ((failsWith_select _ _ _).map _).bind fun _ => ih.map _

end Query

namespace Action

variable {action : Action α} {next : α → Action β}

def FailsWith (kind : Fault → Prop) (action : Action α) : Prop :=
  ∀ workspace, Program.Ensures kind (fun ended => FaultIn kind ended.1) (action.run workspace)

theorem FailsWith.of_ends {before after : Workspace} {result : Except Fault α}
    (failsWith : action.FailsWith kind) (ends : action.Ends before exchanges result after)
    (each : ∀ exchange ∈ exchanges, FaultIn kind exchange.answer) : FaultIn kind result :=
  (failsWith before).of_yields ends each

theorem failsWith_pure (value : α) : FailsWith kind (pure value) := fun _ => faultIn_ok value

theorem failsWith_throw {fault : Fault} (own : kind fault) :
    FailsWith kind (throw fault : Action α) := fun _ => faultIn_error own

theorem failsWith_get : FailsWith kind (get : Action Workspace) := fun _ => faultIn_ok _

theorem failsWith_modify (change : Workspace → Workspace) :
    FailsWith kind (modify change : Action Unit) := fun _ => faultIn_ok ()

theorem failsWith_emit (output : Output) : FailsWith kind (emit output) := failsWith_modify _

theorem failsWith_enter (context : Context) : FailsWith kind (enter context) := failsWith_modify _

theorem failsWith_query {question : Query α} (failsWith : question.FailsWith kind) :
    FailsWith kind (query question) := fun _ =>
  Program.Ensures.andThen failsWith fun _ own => own

theorem FailsWith.bind (first : action.FailsWith kind)
    (others : ∀ value, (next value).FailsWith kind) : (action >>= next).FailsWith kind := by
  intro workspace
  rw [run_bind]
  refine Program.Ensures.andThen (first workspace) fun (result, middle) own => ?_
  cases result with
  | ok value => exact others value middle
  | error fault => exact faultIn_error (own fault rfl)

theorem FailsWith.andThen {action : Action Unit} {next : Unit → Action β}
    (first : action.FailsWith kind) (second : (next ()).FailsWith kind) :
    (action >>= next).FailsWith kind :=
  first.bind fun _ => second

theorem failsWith_forM_emit (outputs : List Output) : FailsWith kind (outputs.forM emit) := by
  induction outputs with
  | nil => exact failsWith_pure ()
  | cons output outputs ih => exact (failsWith_emit output).andThen ih

end Action

end SwitchShell
