import SwitchShell.Proofs.Store.MapColumn

namespace SwitchShell.Memory

variable {memory before middle after : Memory} {table column key value name : String}
  {rows above below : List Row} {row : Row} {conditions : List Condition}

/-- The rows of one table are these now, and nothing else has changed. -/
structure Replaces (table : String) (rows : List Row) (before after : Memory) : Prop where
  serial : after.serial = before.serial
  elsewhere : ∀ other, other ≠ table →
    Dictionary.find? other after.tables = Dictionary.find? other before.tables
  rows : after.rows table = rows

/-- The conditions select the row and none of those above and below it. -/
structure Alone (conditions : List Condition) (above : List Row) (row : Row) (below : List Row) :
    Prop where
  selected : selects conditions row = true
  others : ∀ other ∈ above ++ below, selects conditions other = false

theorem Replaces.refl (memory : Memory) (table : String) :
    Replaces table (memory.rows table) memory memory :=
  ⟨rfl, fun _ _ => rfl, rfl⟩

theorem Replaces.trans {later : List Row} (first : Replaces table rows before middle)
    (second : Replaces table later middle after) : Replaces table later before after :=
  ⟨second.serial.trans first.serial,
    fun other different => (second.elsewhere other different).trans (first.elsewhere other different),
    second.rows⟩

theorem replaces_onTable (found : Dictionary.find? table memory.tables = some rows)
    (change : List Row → List Row) :
    Replaces table (change rows) memory (memory.onTable table change) where
  serial := serial_onTable
  elsewhere _ different := find?_onTable.trans (if_neg different)
  rows := by rw [Memory.rows, find?_onTable, if_pos rfl, found, Option.map_some, Option.getD_some]

theorem selects_named :
    selects [Condition.named name] row = true ↔ row.textAt? "name" = some name := by
  have accepted : selects [Condition.named name] row =
      Json.equal ((Dictionary.find? "name" row).getD .null) (.string name) := by
    simp only [selects, List.all_cons, List.all_nil, Bool.and_true, Condition.accepts]
    rfl
  rw [accepted, Row.textAt?]
  cases Dictionary.find? "name" row with
  | none => simp [Json.equal]
  | some value => cases value <;> simp [Json.equal, Json.string?]

theorem alone_named (named : row.textAt? "name" = some name)
    (others : ∀ other ∈ above ++ below, other.textAt? "name" ≠ some name) :
    Alone [Condition.named name] above row below :=
  ⟨selects_named.mpr named, fun other member =>
    Bool.eq_false_iff.mpr (mt selects_named.mp (others other member))⟩

theorem alone_single (row : Row) : Alone [] [] row [] := ⟨rfl, by simp⟩

theorem Alone.find? (alone : Alone conditions above row below) :
    (above ++ row :: below).find? (selects conditions) = some row := by
  rw [List.find?_append, List.find?_eq_none.mpr fun other member => ?_, List.find?_cons_of_pos,
    Option.none_or]
  · exact alone.selected
  · rw [alone.others other (List.mem_append_left _ member)]
    exact Bool.false_ne_true

theorem Alone.revise (alone : Alone conditions above row below) (change : MapChange) :
    change.revise column conditions (above ++ row :: below) =
      above ++ row.put column change.key change.value? :: below := by
  have kept : ∀ {part : List Row}, part ⊆ above ++ below →
      part.map (fun row => if selects conditions row then row.put column change.key change.value?
        else row) = part := by
    intro part inside
    refine (List.map_congr_left fun other member => ?_).trans (List.map_id _)
    rw [if_neg]
    · rfl
    · rw [alone.others other (inside member)]
      exact Bool.false_ne_true
  rw [MapChange.revise, List.map_append, List.map_cons, if_pos alone.selected,
    kept (List.subset_append_left _ _), kept (List.subset_append_right _ _)]

section Answers

variable (present : memory.rows table = above ++ row :: below)

include present

theorem find?_of_present :
    Dictionary.find? table memory.tables = some (above ++ row :: below) :=
  present ▸ find?_of_rows (by simp [present])

variable (alone : Alone conditions above row below)
  (compare : ∀ condition ∈ conditions, condition.Compares)

include alone compare

theorem Alone.answer_getMap (column : String) :
    ∃ after, Query.answer transact (Query.getMap table column conditions) memory =
        (.ok (row.mapAt column), after) ∧
      Replaces table (above ++ row :: below) memory after := by
  have found := find?_of_present present
  have asked : (Query.answer transact (Query.getMap table column conditions) memory).2 =
      memory.onTable table id := by
    rw [Query.getMap, Query.select, bind_assoc, Query.answer_bind, Query.answer_transact,
      transact_select found fun _ => holdsAll_eq_selects compare]
    rfl
  refine ⟨_, Prod.ext ?_ asked, replaces_onTable found id⟩
  rw [Memory.answer_getMap found compare, alone.find?]
  rfl

theorem Alone.answer_set (column key value : String) :
    ∃ after, Query.answer transact (Query.mapSetKey table column key value conditions) memory =
        (.ok (), after) ∧
      Replaces table (above ++ row.put column key (some value) :: below) memory after := by
  have found := find?_of_present present
  have replaced := replaces_onTable found ((MapChange.set key value).revise column conditions)
  rw [alone.revise] at replaced
  exact ⟨_, @MapChange.answer_query (.set key value) _ _ _ _ _ found compare, replaced⟩

end Answers

end SwitchShell.Memory
