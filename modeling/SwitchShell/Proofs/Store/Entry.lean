import SwitchShell.Proofs.Store.Transaction
import SwitchShell.Store.Query

namespace SwitchShell

namespace Row

variable {row : Row} {column other key sought : String} {first second : Option String}

theorem sorted_decodeMap (value : Json) : Dictionary.Sorted (decodeMap value) := by
  unfold decodeMap
  split
  · split
    · exact Dictionary.sorted_ofPairs _
    · exact Dictionary.sorted_nil
  · exact Dictionary.sorted_nil

theorem sorted_mapAt : (row.mapAt column).Sorted := by
  unfold mapAt
  cases Dictionary.find? column row with
  | none => exact Dictionary.sorted_nil
  | some value => exact sorted_decodeMap value

theorem mapAt_insert {entries : Dictionary String} (sorted : entries.Sorted) :
    mapAt (Dictionary.insert column (encodeMap entries) row) other =
      if other = column then entries else row.mapAt other := by
  unfold mapAt
  rw [Dictionary.find?_insert]
  split
  · rw [Option.elim_some, decodeMap_encodeMap, Dictionary.ofPairs_of_sorted sorted]
  · rfl

/-- Sets or removes an entry of a map column. -/
def put (column key : String) (value? : Option String) (row : Row) : Row :=
  Dictionary.insert column (encodeMap (Dictionary.put key value? (row.mapAt column))) row

theorem find?_put_of_ne (different : other ≠ column) :
    Dictionary.find? other (row.put column key first) = Dictionary.find? other row :=
  Dictionary.find?_insert_of_ne different _ _

theorem mapAt_put :
    (row.put column key first).mapAt other =
      if other = column then Dictionary.put key first (row.mapAt column) else row.mapAt other :=
  mapAt_insert sorted_mapAt.put

theorem put_put :
    (row.put column key first).put column key second = row.put column key second := by
  unfold put
  rw [mapAt_insert sorted_mapAt.put, if_pos rfl, Dictionary.insert_insert, sorted_mapAt.put_put]

theorem put_comm_of_keys (different : key ≠ sought) :
    (row.put column sought second).put column key first =
      (row.put column key first).put column sought second := by
  unfold put
  rw [mapAt_insert sorted_mapAt.put, mapAt_insert sorted_mapAt.put, if_pos rfl, if_pos rfl,
    Dictionary.insert_insert, Dictionary.insert_insert, sorted_mapAt.put_comm different]

theorem put_comm {otherKey : String} (sorted : Dictionary.Sorted row)
    (apart : column ≠ other ∨ key ≠ otherKey) :
    (row.put other otherKey second).put column key first =
      (row.put column key first).put other otherKey second := by
  by_cases same : column = other
  · subst same
    exact put_comm_of_keys (apart.resolve_left fun different => different rfl)
  · unfold put
    rw [mapAt_insert sorted_mapAt.put, mapAt_insert sorted_mapAt.put, if_neg same,
      if_neg (Ne.symm same), sorted.insert_comm same]

/-- The mutations that set an entry, or remove it. -/
theorem mutate_put :
    (Mutation.deleteKey column key ::
      (first.map (Mutation.insertKey column key)).toList).foldlM Memory.mutateRow row =
        .ok (row.put column key first) := by
  have erased : Memory.mutateRow row (Mutation.deleteKey column key) =
      .ok (row.put column key none) := rfl
  rw [List.foldlM_cons, erased]
  cases first with
  | none => rfl
  | some value =>
      have inserted : Memory.mutateRow (row.put column key none)
          (Mutation.insertKey column key value) =
          .ok (Dictionary.insert column (encodeMap (Dictionary.insertNew key value
            ((row.put column key none).mapAt column))) (row.put column key none)) := rfl
      change (Memory.mutateRow (row.put column key none)
          (Mutation.insertKey column key value) >>= fun row => pure row) = _
      rw [inserted, mapAt_put, if_pos rfl]
      unfold put
      rw [Dictionary.insert_insert]
      rfl

end Row

/-- An entry of a map column: of the system row, or of the row of an interface. -/
inductive Entry where
  | system (column key : String)
  | interface (name column key : String)
deriving DecidableEq, Repr

namespace Entry

def table : Entry → String
  | system _ _ => systemTable
  | interface _ _ _ => interfaceTable

def column : Entry → String
  | system column _ => column
  | interface _ column _ => column

def key : Entry → String
  | system _ key => key
  | interface _ _ key => key

/-- The conditions on the row. -/
def conditions : Entry → List Condition
  | system _ _ => []
  | interface name _ _ => [Condition.named name]

/-- The operation that sets the entry, or removes it. -/
def put (entry : Entry) (value? : Option String) : Operation :=
  .mutate entry.table entry.conditions
    (.deleteKey entry.column entry.key ::
      (value?.map (Mutation.insertKey entry.column entry.key)).toList)

/-- The operation that asks for the column of the entry. -/
def ask (entry : Entry) : Operation :=
  .select entry.table entry.conditions (some [entry.column])

/-- What the entry is bound to in the first row that has one. -/
def read (entry : Entry) (memory : Memory) : Option String :=
  ((memory.rows entry.table).find? (Memory.meets entry.conditions)).bind fun row =>
    Dictionary.find? entry.key (row.mapAt entry.column)

variable {entry other : Entry} {memory : Memory} {row : Row} {rows : List Row}
  {first second : Option String} {results : List OperationResult}

theorem conditions_equal (entry : Entry) :
    ∀ condition ∈ entry.conditions, condition.function = "==" := by
  cases entry with
  | system column key => simp [conditions]
  | interface name column key => simp [conditions, Condition.named, Condition.equals]

theorem meets_put {column key : String} (unnamed : column ≠ "name") :
    Memory.meets entry.conditions (row.put column key first) =
      Memory.meets entry.conditions row := by
  cases entry with
  | system _ _ => rfl
  | interface name _ _ =>
      simp only [conditions, Memory.meets, List.all_cons, List.all_nil, Condition.named,
        Condition.equals, Row.find?_put_of_ne (Ne.symm unnamed)]

theorem not_meets_both {name different : String} {column key column' key' : String}
    (apart : name ≠ different) (meets : Memory.meets (interface name column key).conditions row = true) :
    Memory.meets (interface different column' key').conditions row = false := by
  have named : ∀ {name : String}, (Json.equal ((Dictionary.find? "name" row).getD .null)
      (.string name)) = true → (Dictionary.find? "name" row).getD .null = .string name := by
    intro name same
    cases actual : (Dictionary.find? "name" row).getD .null <;> rw [actual] at same <;>
      simp_all [Json.equal]
  rw [← Bool.not_eq_true]
  intro meets'
  simp only [conditions, Memory.meets, List.all_cons, List.all_nil, Bool.and_true, Condition.named,
    Condition.equals] at meets meets'
  have same := (named meets).symm.trans (named meets')
  cases same
  exact apart rfl

/-- The rows of a table after the entry was set in those it belongs to. -/
def putRows (entry : Entry) (value? : Option String) : List Row → List Row :=
  Memory.changed entry.conditions (Row.put entry.column entry.key value?)

theorem transact_put :
    (Memory.transact [entry.put first] memory).2 =
      memory.onTable entry.table (entry.putRows first) := by
  rw [Memory.transact_one, Memory.onTable]
  have table : (entry.put first).table = entry.table := rfl
  rw [table]
  cases found : Dictionary.find? entry.table memory.tables with
  | none => rfl
  | some rows =>
      have mutated := Memory.changeRows_eq entry.conditions_equal fun row (_ : row ∈ rows) =>
        @Row.mutate_put row entry.column entry.key first
      simp only [Memory.executeOn, put, mutated]
      rfl

/-- The rows that the first result brings. -/
def rowsOf : List OperationResult → List Row
  | [] => []
  | result :: _ => result.rows

/-- The map in a column of the first of these rows. -/
def mapOf (column : String) (results : List OperationResult) : Dictionary String :=
  match rowsOf results with
  | [] => []
  | row :: _ => row.mapAt column

theorem mapAt_project {column : String} :
    (Memory.project row (some [column])).mapAt column = row.mapAt column := by
  unfold Row.mapAt
  congr 1
  cases found : Dictionary.find? column row with
  | none => simp [Memory.project, found, Dictionary.ofPairs, Dictionary.find?]
  | some value => simp [Memory.project, found, Dictionary.ofPairs, Dictionary.insert, Dictionary.find?]

theorem isOk_put :
    (Memory.transact [entry.put first] memory).1.isOk =
      (Dictionary.find? entry.table memory.tables).isSome := by
  rw [Memory.transact_one]
  have table : (entry.put first).table = entry.table := rfl
  rw [table]
  cases found : Dictionary.find? entry.table memory.tables with
  | none => rfl
  | some rows =>
      have mutated := Memory.changeRows_eq entry.conditions_equal fun row (_ : row ∈ rows) =>
        @Row.mutate_put row entry.column entry.key first
      simp only [Memory.executeOn, put, mutated]
      rfl

theorem isOk_ask :
    (Memory.transact [entry.ask] memory).1.isOk =
      (Dictionary.find? entry.table memory.tables).isSome := by
  rw [Memory.transact_one]
  have table : entry.ask.table = entry.table := rfl
  rw [table]
  cases Dictionary.find? entry.table memory.tables with
  | none => rfl
  | some rows =>
      simp only [ask, Memory.executeOn, Memory.filterM_holdsAll entry.conditions_equal]
      rfl

theorem read_of_ask (answered : (Memory.transact [entry.ask] memory).1 = .ok results) :
    Dictionary.find? entry.key (mapOf entry.column results) = entry.read memory := by
  rw [Memory.transact_one] at answered
  have table : entry.ask.table = entry.table := rfl
  rw [table] at answered
  unfold read Memory.rows
  cases found : Dictionary.find? entry.table memory.tables with
  | none =>
      rw [found] at answered
      contradiction
  | some rows =>
      simp only [found, ask, Memory.executeOn, Memory.filterM_holdsAll entry.conditions_equal] at answered
      cases answered
      simp only [Option.getD_some, mapOf, rowsOf]
      rw [← List.head?_filter]
      cases rows.filter (Memory.meets entry.conditions) with
      | nil => rfl
      | cons row others => exact congrArg (Dictionary.find? entry.key) mapAt_project

theorem rows_onTable {table : String} {change : List Row → List Row} :
    (memory.onTable entry.table change).rows table =
      if table = entry.table ∧ (Dictionary.find? table memory.tables).isSome
        then change (memory.rows table) else memory.rows table := by
  unfold Memory.rows
  rw [Memory.find?_onTable]
  by_cases same : table = entry.table
  · subst same
    cases Dictionary.find? entry.table memory.tables <;> simp
  · simp [same]

/-- Two entries of one row are in different columns or have different keys. -/
theorem columns_or_keys (apart : entry ≠ other) (same : entry.table = other.table)
    (meets : Memory.meets entry.conditions row = true)
    (meets' : Memory.meets other.conditions row = true) :
    entry.column ≠ other.column ∨ entry.key ≠ other.key := by
  by_cases columns : entry.column = other.column
  · refine .inr fun keys => apart ?_
    cases entry with
    | system column key =>
        cases other with
        | system column' key' =>
            cases columns
            cases keys
            rfl
        | interface name' column' key' => simp [table, systemTable, interfaceTable] at same
    | interface name column key =>
        cases other with
        | system column' key' => simp [table, systemTable, interfaceTable] at same
        | interface name' column' key' =>
            by_cases names : name = name'
            · cases columns
              cases keys
              rw [names]
            · rw [not_meets_both names meets] at meets'
              contradiction
  · exact .inl columns

theorem find?_mapAt_put (apart : entry.column ≠ other.column ∨ entry.key ≠ other.key) :
    Dictionary.find? entry.key ((row.put other.column other.key first).mapAt entry.column) =
      Dictionary.find? entry.key (row.mapAt entry.column) := by
  rw [Row.mapAt_put]
  split
  · rename_i columns
    rw [Dictionary.find?_put, if_neg (apart.resolve_left fun different => different columns),
      columns]
  · rfl

theorem rows_put {table : String} :
    (Memory.transact [entry.put first] memory).2.rows table =
      if table = entry.table then entry.putRows first (memory.rows table) else memory.rows table := by
  rw [transact_put, rows_onTable]
  unfold Memory.rows
  cases Dictionary.find? table memory.tables <;> simp [putRows, Memory.changed]

/-- The conditions are about the name of a row, which no entry is. -/
theorem find?_putRows (unnamed : entry.column ≠ "name") :
    (entry.putRows first rows).find? (Memory.meets other.conditions) =
      (rows.find? (Memory.meets other.conditions)).map fun row =>
        if Memory.meets entry.conditions row then row.put entry.column entry.key first else row :=
  Memory.find?_map_ite fun _ => meets_put unnamed

/-- To set an entry leaves the others as they are. -/
theorem read_put (apart : entry ≠ other) (unnamed : other.column ≠ "name") :
    entry.read (Memory.transact [other.put first] memory).2 = entry.read memory := by
  rw [read, rows_put, read]
  split
  · rename_i same
    rw [find?_putRows unnamed]
    cases located : (memory.rows entry.table).find? (Memory.meets entry.conditions) with
    | none => rfl
    | some row =>
        simp only [Option.map_some, Option.bind_some]
        split
        · rename_i meets'
          exact find?_mapAt_put (columns_or_keys apart same (List.find?_some located) meets')
        · rfl
  · rfl

/-- An entry of a row that is there reads as what it was set to. -/
theorem read_put_self (unnamed : entry.column ≠ "name")
    (present : (memory.rows entry.table).any (Memory.meets entry.conditions) = true) :
    entry.read (Memory.transact [entry.put first] memory).2 = first := by
  obtain ⟨row, located⟩ := Option.isSome_iff_exists.mp (List.find?_isSome.mpr (List.any_eq_true.mp present))
  rw [read, rows_put, if_pos rfl, find?_putRows unnamed, located]
  simp [List.find?_some located, Row.mapAt_put, Dictionary.find?_put]

theorem putRows_comm (apart : entry ≠ other) (same : entry.table = other.table)
    (unnamed : entry.column ≠ "name") (unnamed' : other.column ≠ "name")
    (sorted : ∀ row ∈ rows, Dictionary.Sorted row) :
    entry.putRows first (other.putRows second rows) =
      other.putRows second (entry.putRows first rows) :=
  Memory.map_ite_comm (fun _ => meets_put unnamed') (fun _ => meets_put unnamed)
    fun row member meets meets' =>
      Row.put_comm (sorted row member) (columns_or_keys apart same meets meets')

theorem sorted_put (sorted : memory.Sorted) :
    (Memory.transact [entry.put first] memory).2.Sorted :=
  sorted.transact (List.forall_mem_singleton.mpr fun _ _ inserts => by cases inserts)

theorem put_comm (sorted : memory.Sorted) (apart : entry ≠ other) (unnamed : entry.column ≠ "name")
    (unnamed' : other.column ≠ "name") :
    (Memory.transact [entry.put first] (Memory.transact [other.put second] memory).2).2 =
      (Memory.transact [other.put second] (Memory.transact [entry.put first] memory).2).2 := by
  simp only [transact_put]
  by_cases same : entry.table = other.table
  · rw [← same]
    exact Memory.onTable_comm_of_rows sorted fun rows => putRows_comm apart same unnamed unnamed'
  · exact Memory.onTable_comm sorted.tables same

end Entry

end SwitchShell
