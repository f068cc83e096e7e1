import SwitchShell.Proofs.Dictionary
import SwitchShell.Store.Memory

namespace SwitchShell.Memory

variable {memory : Memory} {operation : Operation} {operations : List Operation}
  {rows : List Row} {row : Row} {conditions : List Condition}

/-- The tables and each of their rows are kept in the order of their names. -/
structure Sorted (memory : Memory) : Prop where
  tables : memory.tables.Sorted
  rows : ∀ entry ∈ memory.tables, ∀ row ∈ entry.2, Dictionary.Sorted row

theorem sorted_withHostname (hostname : String) : (withHostname hostname).Sorted where
  tables := Dictionary.sorted_ofPairs _
  rows := by
    intro entry member row inside
    simp only [withHostname, Dictionary.ofPairs, List.foldl_cons, List.foldl_nil] at member
    rcases Dictionary.mem_insert member with rfl | member
    · rw [List.mem_singleton.mp inside]
      exact Dictionary.sorted_ofPairs _
    · rcases Dictionary.mem_insert member with rfl | member
      · rcases List.mem_append.mp inside with inside | inside
        · obtain ⟨name, _, rfl⟩ := List.mem_map.mp inside
          exact Dictionary.sorted_ofPairs _
        · rw [List.mem_singleton.mp inside]
          exact Dictionary.sorted_ofPairs _
      · rcases Dictionary.mem_insert member with rfl | member
        · rw [List.mem_singleton.mp inside]
          exact Dictionary.sorted_ofPairs _
        · contradiction

theorem Sorted.of_find? {table : String} (sorted : memory.Sorted)
    (found : Dictionary.find? table memory.tables = some rows) (member : row ∈ rows) :
    Dictionary.Sorted row :=
  sorted.rows _ (Dictionary.mem_of_find? found) row member

/-- What the operation inserts is kept in the order of its columns. -/
def InsertsSorted (operation : Operation) : Prop :=
  ∀ table row, operation = .insert table row → Dictionary.Sorted row

theorem exists_of_bind {α β : Type} {first : Except Fault α} {next : α → Except Fault β} {value : β}
    (bound : first >>= next = .ok value) :
    ∃ middle, first = .ok middle ∧ next middle = .ok value := by
  cases first with
  | error fault => contradiction
  | ok middle => exact ⟨middle, rfl, bound⟩

theorem keeps_of_changeRows {kept : Row → Prop} {change : Row → Except Fault Row}
    {later : List Row} {count : Nat}
    (keeps : ∀ row changed, kept row → change row = .ok changed → kept changed)
    (each : ∀ row ∈ rows, kept row)
    (made : changeRows conditions change rows = .ok (later, count)) : ∀ row ∈ later, kept row := by
  induction rows generalizing later count with
  | nil =>
      cases made
      exact List.forall_mem_nil _
  | cons row rows ih =>
      obtain ⟨first, rest⟩ := List.forall_mem_cons.mp each
      unfold changeRows at made
      obtain ⟨meets, _, made⟩ := exists_of_bind made
      split at made
      · obtain ⟨changed, done, made⟩ := exists_of_bind made
        obtain ⟨⟨others, count'⟩, onward, made⟩ := exists_of_bind made
        cases made
        exact List.forall_mem_cons.mpr ⟨keeps row changed first done, ih rest onward⟩
      · obtain ⟨⟨others, count'⟩, onward, made⟩ := exists_of_bind made
        cases made
        exact List.forall_mem_cons.mpr ⟨first, ih rest onward⟩

theorem sorted_mutateRow {mutation : Mutation} {later : Row} (sorted : Dictionary.Sorted row)
    (made : mutateRow row mutation = .ok later) : Dictionary.Sorted later := by
  obtain ⟨entries, _, made⟩ := exists_of_bind made
  cases made
  exact sorted.insert

theorem sorted_mutateAll {mutations : List Mutation} {later : Row} (sorted : Dictionary.Sorted row)
    (made : mutations.foldlM mutateRow row = .ok later) : Dictionary.Sorted later := by
  induction mutations generalizing row with
  | nil =>
      cases made
      exact sorted
  | cons mutation mutations ih =>
      obtain ⟨middle, first, made⟩ := exists_of_bind made
      exact ih (sorted_mutateRow sorted first) made

theorem sorted_executeOn {serial : Nat} {outcome : OperationResult × List Row}
    (sorted : ∀ row ∈ rows, Dictionary.Sorted row) (inserts : InsertsSorted operation)
    (executed : executeOn serial rows operation = .ok outcome) :
    ∀ row ∈ outcome.2, Dictionary.Sorted row := by
  cases operation with
  | select table conditions columns =>
      obtain ⟨selected, _, made⟩ := exists_of_bind executed
      cases made
      exact sorted
  | insert table row =>
      cases executed
      exact List.forall_mem_append.mpr ⟨sorted, List.forall_mem_singleton.mpr
        (Dictionary.Sorted.insert (inserts table row rfl))⟩
  | update table conditions values =>
      obtain ⟨⟨later, count⟩, changes, made⟩ := exists_of_bind executed
      cases made
      refine keeps_of_changeRows (fun row changed sorted made => ?_) sorted changes
      cases made
      exact Dictionary.Sorted.merge sorted
  | mutate table conditions mutations =>
      obtain ⟨⟨later, count⟩, changes, made⟩ := exists_of_bind executed
      cases made
      exact keeps_of_changeRows (fun _ _ => sorted_mutateAll) sorted changes

theorem Sorted.execute {results : List OperationResult} {tables : Tables} {serial : Nat}
    (sorted : memory.Sorted) (inserts : ∀ operation ∈ operations, InsertsSorted operation)
    (executed : execute operations memory = (.ok (results, tables), serial)) :
    Sorted { tables, serial } := by
  induction operations generalizing memory results with
  | nil =>
      cases executed
      exact sorted
  | cons operation operations ih =>
      obtain ⟨first, others⟩ := List.forall_mem_cons.mp inserts
      unfold Memory.execute at executed
      split at executed
      · cases executed
      · rename_i rows found
        split at executed
        · cases executed
        · rename_i result later done
          have kept : Sorted
              { tables := memory.tables.insert operation.table later
                serial := nextSerial memory.serial operation } := by
            refine ⟨sorted.tables.insert, fun entry member row inside => ?_⟩
            rcases Dictionary.mem_insert member with rfl | old
            · exact sorted_executeOn (fun row => sorted.of_find? found) first done row inside
            · exact sorted.rows entry old row inside
          split at executed
          · rename_i onward
            cases executed
            exact ih kept others onward
          · cases executed

theorem Sorted.transact (sorted : memory.Sorted)
    (inserts : ∀ operation ∈ operations, InsertsSorted operation) :
    (transact operations memory).2.Sorted := by
  unfold Memory.transact
  split
  · rename_i executed
    exact sorted.execute inserts executed
  · exact ⟨sorted.tables, sorted.rows⟩

end SwitchShell.Memory
