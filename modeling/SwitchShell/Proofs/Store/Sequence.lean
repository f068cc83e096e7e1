import SwitchShell.Proofs.Store.Transaction

namespace SwitchShell.Memory

variable {memory after : Memory} {first later operations : List Operation}
  {results : List OperationResult} {table : String}

theorem length_of_execute {tables : Tables}
    (executed : (execute operations memory).1 = .ok (results, tables)) :
    results.length = operations.length := by
  induction operations generalizing memory results with
  | nil =>
      cases executed
      rfl
  | cons operation operations ih =>
      unfold execute at executed
      split at executed
      · contradiction
      · split at executed
        · contradiction
        · split at executed
          · rename_i others
            cases executed
            exact congrArg (· + 1) (ih (congrArg Prod.fst others))
          · contradiction

theorem length_of_transact (answered : (transact operations memory).1 = .ok results) :
    results.length = operations.length := by
  unfold transact at answered
  split at answered
  · rename_i executed
    cases answered
    exact length_of_execute (congrArg Prod.fst executed)
  · contradiction

/-- What comes later finds the tables and the serial number as the first operations
leave them. -/
theorem execute_append :
    execute (first ++ later) memory =
      match execute first memory with
      | (.error fault, serial) => (.error fault, serial)
      | (.ok (results, tables), serial) =>
          match execute later { tables, serial } with
          | (.error fault, serial) => (.error fault, serial)
          | (.ok (others, tables), serial) => (.ok (results ++ others, tables), serial) := by
  induction first generalizing memory with
  | nil =>
      simp only [List.nil_append, execute]
      split
      · rename_i failed
        exact failed
      · rename_i executed
        exact executed
  | cons operation first ih =>
      rw [List.cons_append, execute, execute]
      cases Dictionary.find? operation.table memory.tables with
      | none => rfl
      | some rows =>
          dsimp only
          cases executeOn memory.serial rows operation with
          | error fault => rfl
          | ok outcome =>
              dsimp only
              rw [ih]
              rcases execute first _ with ⟨_ | ⟨results, tables⟩, serial⟩
              · rfl
              · dsimp only
                rcases execute later _ with ⟨_ | ⟨others, tables⟩, serial⟩ <;> rfl

theorem transact_eq_ok_iff_execute :
    transact operations memory = (.ok results, after) ↔
      execute operations memory = (.ok (results, after.tables), after.serial) := by
  unfold transact
  rcases execute operations memory with ⟨_ | ⟨others, tables⟩, serial⟩
  · simp
  · cases after
    simp [and_assoc]

/-- Operations succeed together if and only if the first of them succeed and the
others do so afterwards. -/
theorem transact_append_eq_ok_iff :
    transact (first ++ later) memory = (.ok results, after) ↔
      ∃ early middle late, transact first memory = (.ok early, middle) ∧
        transact later middle = (.ok late, after) ∧ results = early ++ late := by
  simp only [transact_eq_ok_iff_execute, execute_append]
  constructor
  · intro executed
    split at executed
    · cases executed
    · rename_i early tables serial begun
      split at executed
      · cases executed
      · rename_i late tables' serial' ended
        cases executed
        exact ⟨early, { tables, serial }, late, begun, ended, rfl⟩
  · rintro ⟨early, middle, late, begun, ended, rfl⟩
    simp only [begun, ended]

theorem find?_execute_isRead {tables : Tables}
    (reads : ∀ operation ∈ operations, operation.isRead = true)
    (executed : (execute operations memory).1 = .ok (results, tables)) :
    Dictionary.find? table tables = Dictionary.find? table memory.tables := by
  induction operations generalizing memory results with
  | nil =>
      cases executed
      rfl
  | cons operation operations ih =>
      obtain ⟨read, others⟩ := List.forall_mem_cons.mp reads
      unfold execute at executed
      split at executed
      · contradiction
      · rename_i rows found
        split at executed
        · contradiction
        · rename_i result kept done
          obtain rfl : kept = rows := executeOn_isRead read done
          split at executed
          · rename_i onward
            cases executed
            rw [ih others (congrArg Prod.fst onward), Dictionary.find?_insert]
            split
            · rename_i same
              rw [same, found]
            · rfl
          · contradiction

/-- A transaction of selects leaves every table as it is. -/
theorem find?_transact_isRead (reads : ∀ operation ∈ operations, operation.isRead = true) :
    Dictionary.find? table (transact operations memory).2.tables =
      Dictionary.find? table memory.tables := by
  unfold transact
  split
  · rename_i executed
    exact find?_execute_isRead reads (congrArg Prod.fst executed)
  · rfl

/-- Transactions are atomic and sequential.  One that fails leaves the tables as they
were.  One that succeeds does what its operations do in two transactions, wherever they
are divided, with a result for each operation.  Selects alone change nothing. -/
theorem transact_atomic_and_sequential (memory : Memory) (first later : List Operation) :
    (∀ fault, (transact first memory).1 = .error fault →
        (transact first memory).2.tables = memory.tables) ∧
      (∀ results after, transact (first ++ later) memory = (.ok results, after) →
        results.length = first.length + later.length ∧
          ∃ middle, transact first memory = (.ok (results.take first.length), middle) ∧
            transact later middle = (.ok (results.drop first.length), after)) ∧
      ((∀ operation ∈ first, operation.isRead = true) → ∀ table,
        Dictionary.find? table (transact first memory).2.tables =
          Dictionary.find? table memory.tables) := by
  refine ⟨fun fault => transact_fails, fun results after answered => ?_,
    fun reads table => find?_transact_isRead reads⟩
  have whole := length_of_transact (congrArg Prod.fst answered)
  rw [List.length_append] at whole
  obtain ⟨early, middle, late, begun, ended, rfl⟩ := transact_append_eq_ok_iff.mp answered
  have early_length := length_of_transact (congrArg Prod.fst begun)
  refine ⟨whole, middle, ?_, ?_⟩
  · rw [← early_length, List.take_left, begun]
  · rw [← early_length, List.drop_left, ended]

/-- One transaction fails after it has inserted a row, one is divided between two rows
that it inserts, one reads. -/
theorem transact_vlans :
    let memory : Memory := { tables := [("VLAN", [])] }
    let create : Operation := .insert "VLAN" []
    let rename : Operation := .update "VLAN" [] [("name", .string "guests")]
    let list : Operation := .select "VLAN" [] none
    let miss : Operation := .select "Port" [] none
    ((transact [create, miss] memory).1 = .error (.database (.unknownTable "Port")) ∧
        (transact [create, miss] memory).2.tables = memory.tables) ∧
      (∃ results after, transact ([create, list] ++ [create, rename]) memory = (.ok results, after) ∧
        results.length = 4 ∧
          ∃ middle, transact [create, list] memory = (.ok (results.take 2), middle) ∧
            transact [create, rename] middle = (.ok (results.drop 2), after)) ∧
      ((∀ operation ∈ [list, list], operation.isRead = true) ∧
        ∀ table, Dictionary.find? table (transact [list, list] memory).2.tables =
          Dictionary.find? table memory.tables) := by
  intro memory create rename list miss
  refine ⟨⟨rfl, ?_⟩, ⟨_, _, rfl, ?_⟩, by decide, ?_⟩
  · exact (transact_atomic_and_sequential memory [create, miss] []).1 _ rfl
  · exact (transact_atomic_and_sequential memory [create, list] [create, rename]).2.1 _ _ rfl
  · exact (transact_atomic_and_sequential memory [list, list] []).2.2 (by decide)

end SwitchShell.Memory
