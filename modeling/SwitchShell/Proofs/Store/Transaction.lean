import SwitchShell.Proofs.Command.Reading
import SwitchShell.Proofs.Store.Sorted
import SwitchShell.Store.Journal

namespace SwitchShell

section Plays

variable {σ α : Type} {backend : Backend σ} {before middle after : σ}
  {exchanges later : List Exchange}

/-- The backend answers the transactions of the exchanges, one after the other. -/
inductive Plays (backend : Backend σ) : σ → List Exchange → σ → Prop where
  | nil (state : σ) : Plays backend state [] state
  | cons {before after : σ} {exchange : Exchange} {exchanges : List Exchange}
      (answered : (backend exchange.operations before).1 = exchange.answer)
      (others : Plays backend (backend exchange.operations before).2 exchanges after) :
      Plays backend before (exchange :: exchanges) after

theorem Plays.split (plays : Plays backend before (exchanges ++ later) after) :
    ∃ middle, Plays backend before exchanges middle ∧ Plays backend middle later after := by
  induction exchanges generalizing before with
  | nil => exact ⟨before, .nil before, plays⟩
  | cons exchange exchanges ih =>
      cases plays with
      | cons answered others =>
          obtain ⟨middle, first, second⟩ := ih others
          exact ⟨middle, .cons answered first, second⟩

theorem plays_singleton_iff {exchange : Exchange} :
    Plays backend before [exchange] after ↔
      backend exchange.operations before = (exchange.answer, after) := by
  constructor
  · intro plays
    cases plays with
    | cons answered others =>
        cases others
        exact Prod.ext answered rfl
  · intro answered
    refine .cons (by rw [answered]) ?_
    rw [answered]
    exact .nil _

theorem Plays.keeps (kept : σ → Prop) (plays : Plays backend before exchanges after)
    (each : ∀ exchange ∈ exchanges, ∀ state, kept state → kept (backend exchange.operations state).2)
    (start : kept before) : kept after := by
  induction plays with
  | nil state => exact start
  | cons answered others ih =>
      obtain ⟨first, rest⟩ := List.forall_mem_cons.mp each
      exact ih rest (first _ start)

theorem Program.exists_plays_run (backend : Backend σ) (program : Program α) (before : σ) :
    ∃ exchanges, Yields program exchanges (run backend program before).1 ∧
      Plays backend before exchanges (run backend program before).2 := by
  induction program generalizing before with
  | done value => exact ⟨[], .done value, .nil before⟩
  | transact operations next ih =>
      obtain ⟨exchanges, later, others⟩ := ih (backend operations before).1 (backend operations before).2
      exact ⟨_ :: exchanges, .transact _ later, .cons rfl others⟩

theorem Program.run_eq_of_plays {program : Program α} {value : α}
    (yields : Yields program exchanges value) (plays : Plays backend before exchanges after) :
    run backend program before = (value, after) := by
  induction yields generalizing before with
  | done value =>
      cases plays
      rfl
  | transact answer later ih =>
      cases plays with
      | cons answered others =>
          simp only at answered
          rw [run]
          simp only [answered] at others ⊢
          exact ih others

end Plays

namespace Exchange

/-- The transaction was not refused. -/
def Answered (exchange : Exchange) : Prop :=
  ∃ results, exchange.answer = .ok results

end Exchange

namespace Memory

variable {memory : Memory} {operation : Operation} {operations : List Operation}
  {rows : List Row} {row : Row} {conditions : List Condition} {fault : Fault}

theorem transact_one :
    transact [operation] memory =
      match Dictionary.find? operation.table memory.tables with
      | none => (.error (.database (.unknownTable operation.table)), memory)
      | some rows =>
          match executeOn memory.serial rows operation with
          | .error fault => (.error fault, memory)
          | .ok (result, rows) =>
              (.ok [result],
                { tables := memory.tables.insert operation.table rows
                  serial := nextSerial memory.serial operation }) := by
  unfold transact execute
  cases Dictionary.find? operation.table memory.tables with
  | none => rfl
  | some rows =>
      cases executed : executeOn memory.serial rows operation with
      | error fault => simp only [executed]
      | ok outcome => simp only [executed, execute]

theorem transact_fails (failed : (transact operations memory).1 = .error fault) :
    (transact operations memory).2.tables = memory.tables := by
  unfold transact at failed ⊢
  split
  · rename_i executed
    rw [executed] at failed
    contradiction
  · rfl

theorem executeOn_isRead {serial : Nat} {outcome : OperationResult × List Row}
    (reads : operation.isRead = true) (executed : executeOn serial rows operation = .ok outcome) :
    outcome.2 = rows := by
  cases operation with
  | select table conditions columns =>
      cases filtered : rows.filterM fun row => holdsAll row conditions with
      | error fault =>
          simp only [executeOn, filtered] at executed
          contradiction
      | ok selected =>
          simp only [executeOn, filtered] at executed
          cases executed
          rfl
  | insert _ _ => contradiction
  | update _ _ _ => contradiction
  | mutate _ _ _ => contradiction

theorem execute_isRead (sorted : memory.tables.Sorted)
    (reads : ∀ operation ∈ operations, operation.isRead = true) :
    (∃ fault, execute operations memory = (.error fault, memory.serial)) ∨
      ∃ results, execute operations memory = (.ok (results, memory.tables), memory.serial) := by
  induction operations with
  | nil => exact .inr ⟨[], rfl⟩
  | cons operation operations ih =>
      have first := reads operation List.mem_cons_self
      cases found : Dictionary.find? operation.table memory.tables with
      | none =>
          refine .inl ⟨.database (.unknownTable operation.table), ?_⟩
          simp only [execute, found]
      | some rows =>
          cases executed : executeOn memory.serial rows operation with
          | error fault => exact .inl ⟨fault, by simp only [execute, found, executed]⟩
          | ok outcome =>
              obtain ⟨result, kept⟩ := outcome
              obtain rfl : kept = rows := executeOn_isRead first executed
              have serial : nextSerial memory.serial operation = memory.serial := by
                cases operation with
                | insert _ _ => contradiction
                | _ => rfl
              simp only [execute, found, executed, serial, sorted.insert_of_find? found]
              rcases ih fun other member => reads other (List.mem_cons_of_mem _ member) with
                ⟨fault, others⟩ | ⟨results, others⟩
              · exact .inl ⟨fault, by rw [others]⟩
              · exact .inr ⟨_, by rw [others]⟩

/-- Reads leave the database as it is. -/
theorem transact_isRead (sorted : memory.tables.Sorted)
    (reads : ∀ operation ∈ operations, operation.isRead = true) :
    (transact operations memory).2 = memory := by
  unfold transact
  rcases execute_isRead sorted reads with ⟨fault, executed⟩ | ⟨results, executed⟩ <;>
    rw [executed]

theorem eq_of_plays_isRead {exchanges : List Exchange} {after : Memory}
    (sorted : memory.tables.Sorted) (plays : Plays transact memory exchanges after)
    (reads : ∀ exchange ∈ exchanges, exchange.IsRead) : after = memory := by
  refine plays.keeps (· = memory) (fun exchange member state same => ?_) rfl
  exact (transact_isRead (same ▸ sorted) (reads exchange member)).trans same

/-- A read sees its table and nothing else. -/
theorem select_congr {memory other : Memory} {table : String} {conditions : List Condition}
    {columns : Option (List String)}
    (same : Dictionary.find? table memory.tables = Dictionary.find? table other.tables) :
    (transact [.select table conditions columns] memory).1 =
      (transact [.select table conditions columns] other).1 := by
  rw [transact_one, transact_one]
  simp only [Operation.table, same]
  cases Dictionary.find? table other.tables with
  | none => rfl
  | some rows =>
      have serial : executeOn memory.serial rows (.select table conditions columns) =
          executeOn other.serial rows (.select table conditions columns) := rfl
      simp only [serial]
      split <;> rfl

theorem find?_transact_of_ne {table : String} (different : table ≠ operation.table) :
    Dictionary.find? table (transact [operation] memory).2.tables =
      Dictionary.find? table memory.tables := by
  rw [transact_one]
  split
  · rfl
  · split
    · rfl
    · exact Dictionary.find?_insert_of_ne different _ _

theorem isSome_find?_transact {table : String} :
    (Dictionary.find? table (transact [operation] memory).2.tables).isSome =
      (Dictionary.find? table memory.tables).isSome := by
  by_cases same : table = operation.table
  · subst same
    rw [transact_one]
    cases found : Dictionary.find? operation.table memory.tables with
    | none => rw [found]
    | some rows =>
        cases executed : executeOn memory.serial rows operation with
        | error fault => simp only [executed, found]
        | ok outcome => simp only [executed, Dictionary.find?_insert_self, Option.isSome_some]
  · rw [find?_transact_of_ne same]

/-- The rows that an operation puts in the place of those of its table, unless it
is refused. -/
def revised (memory : Memory) (operation : Operation) : Option (List Row) :=
  (Dictionary.find? operation.table memory.tables).bind fun rows =>
    (executeOn memory.serial rows operation).toOption.map Prod.snd

theorem snd_transact_one :
    (transact [operation] memory).2 =
      match revised memory operation with
      | none => memory
      | some rows =>
          { tables := memory.tables.insert operation.table rows
            serial := nextSerial memory.serial operation } := by
  rw [transact_one, revised]
  cases Dictionary.find? operation.table memory.tables with
  | none => rfl
  | some rows => cases executed : executeOn memory.serial rows operation <;> simp [executed, Except.toOption]

/-- Transactions on two tables do not get in each other's way. -/
theorem transact_comm {first second : Operation} (sorted : memory.tables.Sorted)
    (different : first.table ≠ second.table) (keeps : ∀ table row, first ≠ .insert table row) :
    (transact [first] (transact [second] memory).2).2 =
      (transact [second] (transact [first] memory).2).2 := by
  -- Only what inserts a row looks at the serial number and raises it.
  have blind : ∀ serial other rows, executeOn serial rows first = executeOn other rows first := by
    intro serial other rows
    cases first with
    | insert table row => exact absurd rfl (keeps table row)
    | _ => rfl
  have still : ∀ serial, nextSerial serial first = serial := by
    intro serial
    cases first with
    | insert table row => exact absurd rfl (keeps table row)
    | _ => rfl
  have serial : (transact [first] memory).2.serial = memory.serial := by
    rw [snd_transact_one]
    split
    · rfl
    · exact still _
  have same : revised (transact [second] memory).2 first = revised memory first := by
    simp only [revised, find?_transact_of_ne different, blind _ memory.serial]
  have same' : revised (transact [first] memory).2 second = revised memory second := by
    simp only [revised, find?_transact_of_ne different.symm, serial]
  rw [@snd_transact_one (transact [second] memory).2, same,
    @snd_transact_one (transact [first] memory).2, same']
  simp only [snd_transact_one]
  cases revised memory first <;> cases revised memory second <;> simp only [still]
  rw [sorted.insert_comm different]

/-- The columns have the values that the conditions name. -/
def meets (conditions : List Condition) (row : Row) : Bool :=
  conditions.all fun condition =>
    (Dictionary.find? condition.column row).getD .null == condition.value

/-- What becomes of rows if those that meet the conditions change. -/
def changed (conditions : List Condition) (change : Row → Row) (rows : List Row) : List Row :=
  rows.map fun row => if meets conditions row then change row else row

theorem holdsAll_eq (equal : ∀ condition ∈ conditions, condition.function = "==") :
    holdsAll row conditions = .ok (meets conditions row) := by
  induction conditions with
  | nil => rfl
  | cons condition conditions ih =>
      have rest := ih fun other member => equal other (List.mem_cons_of_mem _ member)
      have split : meets (condition :: conditions) row =
          ((Dictionary.find? condition.column row).getD .null == condition.value &&
            meets conditions row) := rfl
      unfold holdsAll
      rw [rest, holds, if_pos (equal condition List.mem_cons_self), split]
      cases (Dictionary.find? condition.column row).getD .null == condition.value <;> rfl

theorem filterM_of_holdsAll {test : Row → Bool}
    (decided : ∀ row, holdsAll row conditions = .ok (test row)) :
    (rows.filterM fun row => holdsAll row conditions) = .ok (rows.filter test) := by
  have kept : ∀ front : List Row,
      rows.filterAuxM (fun row => holdsAll row conditions) front =
        .ok ((rows.filter test).reverse ++ front) := by
    induction rows with
    | nil => exact fun _ => rfl
    | cons row rows ih =>
        intro front
        rw [List.filterAuxM, decided row, List.filter_cons]
        cases test row with
        | true => exact (ih (row :: front)).trans (by simp)
        | false => exact ih front
  rw [List.filterM, kept, List.append_nil]
  exact congrArg Except.ok (List.reverse_reverse _)

/-- They change these rows and no others. -/
theorem changeRows_of_holdsAll {test : Row → Bool} {change : Row → Except Fault Row}
    {total : Row → Row} (decided : ∀ row, holdsAll row conditions = .ok (test row))
    (always : ∀ row ∈ rows, change row = .ok (total row)) :
    changeRows conditions change rows =
      .ok (rows.map fun row => if test row then total row else row, rows.countP test) := by
  induction rows with
  | nil => rfl
  | cons row rows ih =>
      have rest := ih fun other member => always other (List.mem_cons_of_mem _ member)
      unfold changeRows
      rw [decided row, rest, always row List.mem_cons_self, List.map_cons, List.countP_cons]
      cases test row <;> rfl

theorem filterM_holdsAll (equal : ∀ condition ∈ conditions, condition.function = "==") :
    (rows.filterM fun row => holdsAll row conditions) =
      .ok (rows.filter (meets conditions)) :=
  filterM_of_holdsAll fun _ => holdsAll_eq equal

theorem changeRows_eq {change : Row → Except Fault Row} {total : Row → Row}
    (equal : ∀ condition ∈ conditions, condition.function = "==")
    (always : ∀ row ∈ rows, change row = .ok (total row)) :
    changeRows conditions change rows =
      .ok (changed conditions total rows, rows.countP (meets conditions)) :=
  changeRows_of_holdsAll (fun _ => holdsAll_eq equal) always

theorem changed_of_countP {change : Row → Row} (nothing : rows.countP (meets conditions) = 0) :
    changed conditions change rows = rows := by
  rw [List.countP_eq_zero] at nothing
  unfold changed
  refine (List.map_congr_left fun row member => if_neg (nothing row member)).trans ?_
  exact List.map_id rows

section Changes

variable {test other : Row → Bool} {change change' : Row → Row}

/-- What does not change in a row stays as it is in all of them. -/
theorem comp_ite {β : Type} {view : Row → β} (kept : ∀ row, view (change row) = view row) :
    (view ∘ fun row => if test row then change row else row) = view := by
  funext row
  simp only [Function.comp_apply]
  split
  · exact kept row
  · rfl

theorem find?_map_ite (kept : ∀ row, other (change row) = other row) :
    (rows.map fun row => if test row then change row else row).find? other =
      (rows.find? other).map fun row => if test row then change row else row := by
  rw [List.find?_map, comp_ite kept]

/-- Changes that leave each other's rows to be changed may come in either order. -/
theorem map_ite_comm (kept : ∀ row, test (change' row) = test row)
    (kept' : ∀ row, other (change row) = other row)
    (swap : ∀ row ∈ rows, test row = true → other row = true →
      change (change' row) = change' (change row)) :
    ((rows.map fun row => if other row then change' row else row).map fun row =>
        if test row then change row else row) =
      (rows.map fun row => if test row then change row else row).map fun row =>
        if other row then change' row else row := by
  rw [List.map_map, List.map_map]
  refine List.map_congr_left fun row member => ?_
  simp only [Function.comp_apply]
  by_cases first : test row = true <;> by_cases second : other row = true
  · simp only [first, second, kept, kept', if_true]
    exact swap row member first second
  all_goals simp [first, second, kept, kept']

end Changes

/-- A change of the rows of a table, if the table is there. -/
def onTable (table : String) (change : List Row → List Row) (memory : Memory) : Memory :=
  match Dictionary.find? table memory.tables with
  | none => memory
  | some rows => { memory with tables := memory.tables.insert table (change rows) }

variable {table other : String} {first second : List Row → List Row}

theorem serial_onTable : (memory.onTable table first).serial = memory.serial := by
  unfold onTable
  split <;> rfl

theorem find?_onTable :
    Dictionary.find? other (memory.onTable table first).tables =
      if other = table then (Dictionary.find? table memory.tables).map first
      else Dictionary.find? other memory.tables := by
  unfold onTable
  split
  · rename_i missing
    split
    · rename_i same
      rw [same, missing]
      rfl
    · rfl
  · rename_i rows found
    rw [Dictionary.find?_insert]
    split <;> simp [found]

theorem onTable_comm (sorted : memory.tables.Sorted) (different : table ≠ other) :
    (memory.onTable other second).onTable table first =
      (memory.onTable table first).onTable other second := by
  unfold onTable
  cases found : Dictionary.find? table memory.tables <;>
    cases found' : Dictionary.find? other memory.tables <;>
    simp only [found, found', Dictionary.find?_insert, different, different.symm, if_false]
  rw [sorted.insert_comm different]

theorem onTable_onTable :
    (memory.onTable table second).onTable table first =
      memory.onTable table fun rows => first (second rows) := by
  unfold onTable
  cases found : Dictionary.find? table memory.tables with
  | none => simp only [found]
  | some rows => simp only [Dictionary.find?_insert_self, Dictionary.insert_insert]

theorem onTable_comm_of_rows (sorted : memory.Sorted)
    (swap : ∀ rows : List Row, (∀ row ∈ rows, Dictionary.Sorted row) →
      first (second rows) = second (first rows)) :
    (memory.onTable table second).onTable table first =
      (memory.onTable table first).onTable table second := by
  rw [onTable_onTable, onTable_onTable]
  unfold onTable
  cases found : Dictionary.find? table memory.tables with
  | none => rfl
  | some rows => simp only [swap rows fun row => sorted.of_find? found]

end Memory

namespace Journal

variable {σ : Type} {backend : Backend σ} {outage : Nat → Bool} {fault failure : Fault}
  {operations : List Operation} {exchanges : List Exchange}

/-- A transaction fails before it comes to the backend, or the backend answers it. -/
theorem fails_or_reaches (journal : Journal σ) :
    ((transact outage fault backend operations journal).1 = .error fault ∧
      (transact outage fault backend operations journal).2.state = journal.state) ∨
    ((transact outage fault backend operations journal).1,
      (transact outage fault backend operations journal).2.state) =
        backend operations journal.state := by
  unfold transact
  split
  · exact .inl ⟨rfl, rfl⟩
  · exact .inr rfl

theorem transact_ok {journal : Journal σ} {results : List OperationResult}
    (answered : (transact outage fault backend operations journal).1 = .ok results) :
    backend operations journal.state =
      (.ok results, (transact outage fault backend operations journal).2.state) := by
  rcases @fails_or_reaches _ backend outage fault operations journal with ⟨failed, _⟩ | reached
  · rw [answered] at failed
    contradiction
  · rw [← reached, answered]

theorem plays_of_answered {before after : Journal σ}
    (plays : Plays (transact outage fault backend) before exchanges after)
    (answered : ∀ exchange ∈ exchanges, exchange.Answered) :
    Plays backend before.state exchanges after.state := by
  induction plays with
  | nil journal => exact .nil _
  | cons same others ih =>
      obtain ⟨⟨results, ok⟩, rest⟩ := List.forall_mem_cons.mp answered
      have reached := transact_ok (same.trans ok)
      refine .cons (by rw [reached, ok]) ?_
      rw [reached]
      exact ih rest

variable {journal before after : Journal Memory}

theorem tables_of_fails
    (failed : (transact outage fault Memory.transact operations journal).1 = .error failure) :
    (transact outage fault Memory.transact operations journal).2.state.tables =
      journal.state.tables := by
  rcases fails_or_reaches journal with ⟨_, kept⟩ | reached
  · rw [kept]
  · obtain ⟨answer, state⟩ := Prod.mk.inj reached
    rw [state]
    exact Memory.transact_fails (answer.symm.trans failed)

theorem state_of_isRead (sorted : journal.state.tables.Sorted)
    (reads : ∀ operation ∈ operations, operation.isRead = true) :
    (transact outage fault Memory.transact operations journal).2.state = journal.state := by
  rcases fails_or_reaches journal with ⟨_, kept⟩ | reached
  · exact kept
  · exact (Prod.mk.inj reached).2.trans (Memory.transact_isRead sorted reads)

theorem state_of_plays_isRead (sorted : before.state.tables.Sorted)
    (plays : Plays (transact outage fault Memory.transact) before exchanges after)
    (reads : ∀ exchange ∈ exchanges, exchange.IsRead) : after.state = before.state := by
  refine plays.keeps (·.state = before.state) (fun exchange member journal same => ?_) rfl
  exact (state_of_isRead (same ▸ sorted) (reads exchange member)).trans same

end Journal

end SwitchShell
