import SwitchShell.Proofs.Store.Entry

namespace SwitchShell.Memory

variable {memory : Memory} {table : String} {rows : List Row} {row : Row} {column : String}
  {conditions : List Condition} {columns : List String}

theorem find?_of_rows (some : memory.rows table ≠ []) :
    Dictionary.find? table memory.tables = .some (memory.rows table) := by
  unfold rows at some ⊢
  cases found : Dictionary.find? table memory.tables <;> simp_all

@[simp] theorem filter_meets_nil : rows.filter (meets []) = rows :=
  List.filter_eq_self.mpr fun _ _ => rfl

/-- The answer brings the rows that pass the test; the table is put back as it is. -/
theorem transact_select {test : Row → Bool} {columns : Option (List String)}
    (found : Dictionary.find? table memory.tables = .some rows)
    (decided : ∀ row, holdsAll row conditions = .ok (test row)) :
    transact [.select table conditions columns] memory =
      (.ok [{ rows := (rows.filter test).map fun row => project row columns }],
        memory.onTable table id) := by
  rw [transact_one, onTable]
  simp only [Operation.table, found, executeOn, filterM_of_holdsAll decided]
  rfl

theorem fst_transact_select {test : Row → Bool} {columns : Option (List String)}
    (found : Dictionary.find? table memory.tables = .some rows)
    (decided : ∀ row, holdsAll row conditions = .ok (test row)) :
    (transact [.select table conditions columns] memory).1 =
      .ok [{ rows := (rows.filter test).map fun row => project row columns }] :=
  congrArg Prod.fst (transact_select found decided)

theorem answer_select (sorted : memory.Sorted) (some : memory.rows table ≠ [])
    (equal : ∀ condition ∈ conditions, condition.function = "==") (columns : Option (List String)) :
    Query.answer transact (Query.select table conditions columns) memory =
      (.ok (((memory.rows table).filter (meets conditions)).map fun row => project row columns),
        memory) := by
  have kept : (transact [.select table conditions columns] memory).2 = memory :=
    transact_isRead sorted.tables (List.forall_mem_singleton.mpr rfl)
  rw [Query.select, Query.answer_bind, Query.answer_transact, ← Prod.eta (transact _ memory),
    fst_transact_select (find?_of_rows some) fun _ => holdsAll_eq equal, kept]
  rfl

theorem find?_foldl_columns {entries : Row}
    (either : Dictionary.find? column entries = none ∨
      Dictionary.find? column entries = Dictionary.find? column row) :
    Dictionary.find? column ((columns.filterMap fun column =>
        (Dictionary.find? column row).map fun value => (column, value)).foldl
          (fun entries pair => Dictionary.insert pair.1 pair.2 entries) entries) =
      if column ∈ columns then Dictionary.find? column row else Dictionary.find? column entries := by
  induction columns generalizing entries with
  | nil => simp
  | cons other columns ih =>
      cases found : Dictionary.find? other row with
      | none =>
          simp only [List.filterMap_cons, found, Option.map_none, ih either, List.mem_cons]
          by_cases same : column = other <;> grind
      | some value =>
          simp only [List.filterMap_cons, found, Option.map_some, List.foldl_cons, List.mem_cons]
          rw [ih (by rw [Dictionary.find?_insert]; grind), Dictionary.find?_insert]
          grind

/-- A column that was asked for is there as in the row. -/
theorem find?_project (asked : column ∈ columns) :
    Dictionary.find? column (project row (some columns)) = Dictionary.find? column row := by
  refine (find?_foldl_columns (.inl rfl)).trans (if_pos asked)

theorem mapAt_project (asked : column ∈ columns) :
    (project row (some columns)).mapAt column = row.mapAt column := by
  rw [Row.mapAt, find?_project asked, Row.mapAt]

theorem textAt?_project (asked : column ∈ columns) :
    (project row (some columns)).textAt? column = row.textAt? column := by
  rw [Row.textAt?, find?_project asked, Row.textAt?]

end SwitchShell.Memory
