import Mathlib.Data.List.Forall2
import SwitchShell.Proofs.Store.Select

namespace SwitchShell

namespace Condition

/-- The condition asks for a value in a column, or for any other value there. -/
def Compares (condition : Condition) : Prop :=
  condition.function = "==" ∨ condition.function = "!="

instance (condition : Condition) : Decidable condition.Compares :=
  inferInstanceAs (Decidable (_ ∨ _))

/-- The row has what the condition asks for.  A missing column counts as null. -/
def accepts (condition : Condition) (row : Row) : Bool :=
  let actual := (Dictionary.find? condition.column row).getD .null
  if condition.function = "==" then actual == condition.value else actual != condition.value

variable {condition : Condition} {row : Row} {column key : String} {value? : Option String}

theorem holds_eq_accepts (compares : condition.Compares) :
    Memory.holds row condition = .ok (condition.accepts row) := by
  unfold Memory.holds accepts
  rcases compares with equal | unequal
  · simp only [if_pos equal]
  · simp [unequal]

theorem accepts_put (elsewhere : condition.column ≠ column) :
    condition.accepts (row.put column key value?) = condition.accepts row := by
  unfold accepts
  rw [Row.find?_put_of_ne elsewhere]

end Condition

namespace Memory

variable {memory : Memory} {table column key : String} {value? : Option String}
  {rows : List Row} {row : Row} {conditions : List Condition}

/-- The row has what all of the conditions ask for. -/
def selects (conditions : List Condition) (row : Row) : Bool :=
  conditions.all fun condition => condition.accepts row

theorem holdsAll_eq_selects (compare : ∀ condition ∈ conditions, condition.Compares) :
    holdsAll row conditions = .ok (selects conditions row) := by
  induction conditions with
  | nil => rfl
  | cons condition conditions ih =>
      obtain ⟨first, rest⟩ := List.forall_mem_cons.mp compare
      rw [holdsAll, Condition.holds_eq_accepts first, selects, List.all_cons]
      cases condition.accepts row with
      | true => exact ih rest
      | false => rfl

theorem selects_put (elsewhere : ∀ condition ∈ conditions, condition.column ≠ column) :
    selects conditions (row.put column key value?) = selects conditions row := by
  induction conditions with
  | nil => rfl
  | cons condition conditions ih =>
      obtain ⟨first, rest⟩ := List.forall_mem_cons.mp elsewhere
      unfold selects at ih ⊢
      rw [List.all_cons, List.all_cons, Condition.accepts_put first, ih rest]

/-- The map that is asked for is that of the first row the conditions select. -/
theorem answer_getMap (found : Dictionary.find? table memory.tables = some rows)
    (compare : ∀ condition ∈ conditions, condition.Compares) :
    (Query.answer transact (Query.getMap table column conditions) memory).1 =
      .ok ((rows.find? (selects conditions)).elim [] fun row => row.mapAt column) := by
  rw [Query.getMap, Query.select, bind_assoc, Query.answer_bind, Query.answer_transact,
    ← Prod.eta (transact _ memory), fst_transact_select found fun _ => holdsAll_eq_selects compare,
    ← List.head?_filter]
  cases rows.filter (selects conditions) with
  | nil => rfl
  | cons row others => exact congrArg Except.ok (mapAt_project (List.mem_singleton.mpr rfl))

end Memory

/-- A change of one key of a map. -/
inductive MapChange where
  | set (key value : String)
  | delete (key : String)
deriving DecidableEq, Repr

namespace MapChange

def key : MapChange → String
  | set key _ => key
  | delete key => key

/-- What the key is bound to afterwards. -/
def value? : MapChange → Option String
  | set _ value => some value
  | delete _ => none

/-- What the change makes of a map. -/
def apply : MapChange → Dictionary String → Dictionary String
  | set key value, entries => Dictionary.insert key value entries
  | delete key, entries => Dictionary.erase key entries

/-- Asks for the change of a map column in the rows that meet the conditions. -/
def query (table column : String) (conditions : List Condition) : MapChange → Query Unit
  | set key value => Query.mapSetKey table column key value conditions
  | delete key => Query.mapDeleteKey table column key conditions

/-- The map in the column has changed, and every other column is as it was. -/
structure Revises (change : MapChange) (column : String) (row later : Row) : Prop where
  map : later.mapAt column = change.apply (row.mapAt column)
  others : ∀ other, other ≠ column → Dictionary.find? other later = Dictionary.find? other row

/-- The rows of a table after the change in those that the conditions select. -/
def revise (change : MapChange) (column : String) (conditions : List Condition)
    (rows : List Row) : List Row :=
  rows.map fun row =>
    if Memory.selects conditions row then row.put column change.key change.value? else row

variable {change first second : MapChange} {memory : Memory} {table column : String}
  {rows : List Row} {row : Row} {conditions others : List Condition}

theorem apply_eq_put {entries : Dictionary String} (sorted : entries.Sorted) :
    change.apply entries = Dictionary.put change.key change.value? entries := by
  cases change with
  | set key value => exact sorted.put_some.symm
  | delete key => rfl

theorem revises_put :
    change.Revises column row (row.put column change.key change.value?) where
  map := by rw [Row.mapAt_put, if_pos rfl, apply_eq_put Row.sorted_mapAt]
  others := fun _ different => Row.find?_put_of_ne different

theorem answer_query (found : Dictionary.find? table memory.tables = some rows)
    (compare : ∀ condition ∈ conditions, condition.Compares) :
    Query.answer Memory.transact (change.query table column conditions) memory =
      (.ok (), memory.onTable table (change.revise column conditions)) := by
  -- Both queries send one operation, which deletes the key and then may insert it.
  have sent : change.query table column conditions =
      Query.mutate table conditions (.deleteKey column change.key ::
        (change.value?.map (Mutation.insertKey column change.key)).toList) >>= fun _ => pure () := by
    cases change <;> rfl
  have revised := Memory.changeRows_of_holdsAll
    (fun _ => Memory.holdsAll_eq_selects compare)
    fun row (_ : row ∈ rows) => @Row.mutate_put row column change.key change.value?
  rw [sent, Query.mutate, bind_assoc, Query.answer_bind, Query.answer_transact,
    Memory.transact_one]
  simp only [Operation.table, found, Memory.executeOn, revised, Memory.onTable]
  rfl

theorem find?_onTable_revise (found : Dictionary.find? table memory.tables = some rows) :
    Dictionary.find? table (memory.onTable table (change.revise column conditions)).tables =
      some (change.revise column conditions rows) := by
  rw [Memory.find?_onTable, if_pos rfl, found, Option.map_some]

theorem answer_query_query (found : Dictionary.find? table memory.tables = some rows)
    (compare : ∀ condition ∈ conditions, condition.Compares)
    (compare' : ∀ condition ∈ others, condition.Compares) :
    Query.answer Memory.transact (second.query table column others)
        (Query.answer Memory.transact (first.query table column conditions) memory).2 =
      (.ok (), memory.onTable table fun rows =>
        second.revise column others (first.revise column conditions rows)) := by
  rw [answer_query found compare, answer_query (find?_onTable_revise found) compare',
    Memory.onTable_onTable]

theorem forall₂_revise :
    List.Forall₂ (fun row later =>
        if Memory.selects conditions row then change.Revises column row later else later = row)
      rows (change.revise column conditions rows) := by
  refine List.forall₂_map_right_iff.mpr (List.forall₂_same.mpr fun row _ => ?_)
  by_cases selected : Memory.selects conditions row = true
  · rw [if_pos selected, if_pos selected]
    exact revises_put
  · rw [if_neg selected, if_neg selected]

section Elsewhere

variable (elsewhere : ∀ condition ∈ conditions, condition.column ≠ column)

include elsewhere

theorem find?_revise :
    (change.revise column conditions rows).find? (Memory.selects conditions) =
      (rows.find? (Memory.selects conditions)).map fun row =>
        row.put column change.key change.value? := by
  rw [revise, Memory.find?_map_ite fun _ => Memory.selects_put elsewhere]
  cases first : rows.find? (Memory.selects conditions) with
  | none => rfl
  | some row => simp [List.find?_some first]

/-- What was set is what is read, if there is a row to read it from. -/
theorem answer_getMap_revised (found : Dictionary.find? table memory.tables = some rows)
    (compare : ∀ condition ∈ conditions, condition.Compares) :
    (Query.answer Memory.transact (Query.getMap table column conditions)
        (memory.onTable table (change.revise column conditions))).1 =
      .ok (if rows.any (Memory.selects conditions) then
        change.apply ((rows.find? (Memory.selects conditions)).elim [] fun row => row.mapAt column)
        else []) := by
  rw [Memory.answer_getMap (find?_onTable_revise found) compare, find?_revise elsewhere,
    ← List.isSome_find?]
  cases rows.find? (Memory.selects conditions) with
  | none => rfl
  | some row => exact congrArg Except.ok revises_put.map

theorem revise_revise (same : first.key = second.key) :
    second.revise column conditions (first.revise column conditions rows) =
      second.revise column conditions rows := by
  rw [revise, revise, revise, List.map_map]
  refine List.map_congr_left fun row _ => ?_
  by_cases selected : Memory.selects conditions row = true
  · simp only [Function.comp_apply, selected, Memory.selects_put elsewhere, if_true]
    rw [same, Row.put_put]
  · simp [selected]

theorem revise_comm (elsewhere' : ∀ condition ∈ others, condition.column ≠ column)
    (different : first.key ≠ second.key) :
    second.revise column others (first.revise column conditions rows) =
      first.revise column conditions (second.revise column others rows) :=
  Memory.map_ite_comm (fun _ => Memory.selects_put elsewhere') (fun _ => Memory.selects_put elsewhere)
    fun _ _ _ _ => Row.put_comm_of_keys different.symm

end Elsewhere

end MapChange

namespace Memory

variable {memory : Memory} {table column : String} {rows : List Row} {conditions : List Condition}

/-- A map column behaves like a map.  A change of a key happens in the map of the
column in every row that the conditions select, and nowhere else.  If no condition
is about the column, what is read afterwards is what was read before, with that
change, unless no row is selected; of two changes of one key the later one counts,
and changes of different keys may come in either order. -/
theorem map_column_is_map (found : Dictionary.find? table memory.tables = some rows)
    (compare : ∀ condition ∈ conditions, condition.Compares) :
    (∀ change : MapChange, ∃ later after,
      Query.answer transact (change.query table column conditions) memory = (.ok (), after) ∧
      after.serial = memory.serial ∧
      (∀ other, Dictionary.find? other after.tables =
        if other = table then some later else Dictionary.find? other memory.tables) ∧
      List.Forall₂ (fun row row' =>
          if selects conditions row then change.Revises column row row' else row' = row)
        rows later) ∧
    ((∀ condition ∈ conditions, condition.column ≠ column) →
      (∃ old, (Query.answer transact (Query.getMap table column conditions) memory).1 = .ok old ∧
        ∀ change : MapChange,
          (Query.answer transact (Query.getMap table column conditions)
            (Query.answer transact (change.query table column conditions) memory).2).1 =
              .ok (if rows.any (selects conditions) then change.apply old else [])) ∧
      (∀ first second : MapChange, first.key = second.key →
        Query.answer transact (second.query table column conditions)
          (Query.answer transact (first.query table column conditions) memory).2 =
            Query.answer transact (second.query table column conditions) memory) ∧
      ∀ (first second : MapChange) (others : List Condition),
        (∀ condition ∈ others, condition.Compares ∧ condition.column ≠ column) →
        first.key ≠ second.key →
        Query.answer transact (second.query table column others)
          (Query.answer transact (first.query table column conditions) memory).2 =
            Query.answer transact (first.query table column conditions)
              (Query.answer transact (second.query table column others) memory).2) := by
  refine ⟨fun change => ⟨change.revise column conditions rows, _,
    MapChange.answer_query found compare, serial_onTable, fun other => ?_,
    MapChange.forall₂_revise⟩, fun elsewhere => ⟨⟨_, answer_getMap found compare, fun change => ?_⟩,
      fun first second same => ?_, fun first second others beside different => ?_⟩⟩
  · rw [find?_onTable, found, Option.map_some]
  · rw [MapChange.answer_query found compare]
    exact MapChange.answer_getMap_revised elsewhere found compare
  · -- the second query finds the rows that the first one left
    rw [MapChange.answer_query_query found compare compare, MapChange.answer_query found compare]
    simp only [MapChange.revise_revise elsewhere same]
  · have compare' := fun condition member => (beside condition member).1
    have elsewhere' := fun condition member => (beside condition member).2
    rw [MapChange.answer_query_query found compare compare',
      MapChange.answer_query_query found compare' compare]
    simp only [MapChange.revise_comm elsewhere elsewhere' different]

/-- Ports with options that are no map, with options of which one is named twice and
one by no text, and without options. -/
def portRows : List Row := [
  [("name", .string "1"), ("options", .string "none")],
  [("name", .string "2"), ("options", .array [.string "map", .array [
    .array [.string "speed", .integer 10], .array [.string "speed", .integer 100],
    .array [.bool true, .string "up"]]])],
  [("name", .string "3")]]

def portMemory : Memory := { tables := [("Port", portRows)] }

/-- All ports but the first. -/
def laterPorts : List Condition :=
  [{ column := "name", function := "!=", value := .string "1" }, Condition.equals "kind" .null]

theorem port_options_set :
    (Query.answer transact (Query.getMap "Port" "options" laterPorts)
      (Query.answer transact (Query.mapSetKey "Port" "options" "speed" "40" laterPorts)
        portMemory).2).1 = .ok [("speed", "40"), ("true", "up")] ∧
    Query.answer transact (Query.mapDeleteKey "Port" "options" "true" [])
        (Query.answer transact (Query.mapSetKey "Port" "options" "speed" "40" laterPorts)
          portMemory).2 =
      Query.answer transact (Query.mapSetKey "Port" "options" "speed" "40" laterPorts)
        (Query.answer transact (Query.mapDeleteKey "Port" "options" "true" []) portMemory).2 := by
  obtain ⟨_, elsewhere⟩ :=
    @map_column_is_map portMemory "Port" "options" portRows laterPorts rfl (by decide)
  obtain ⟨⟨old, before, after⟩, _, either⟩ := elsewhere (by decide)
  have read : (Query.answer transact (Query.getMap "Port" "options" laterPorts) portMemory).1 =
      .ok [("speed", "100"), ("true", "up")] := by decide
  obtain rfl : old = [("speed", "100"), ("true", "up")] := by
    rw [read] at before
    exact (Except.ok.inj before).symm
  exact ⟨after (.set "speed" "40"),
    either (.set "speed" "40") (.delete "true") [] (by decide) (by decide)⟩

end Memory

end SwitchShell
