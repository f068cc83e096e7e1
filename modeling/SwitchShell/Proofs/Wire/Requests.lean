import SwitchShell.Proofs.Wire.Documents
import SwitchShell.Wire.Message

namespace SwitchShell

open Text (Bytes)

variable {α : Type} {operation : Operation} {operations : List Operation} {database : String}
  {id depth : Nat} {chunks : List Bytes} {rest : Bytes}

theorem Json.mapM_of_inverse {read : Json → Option α} {write : α → Json}
    (inverse : ∀ item, read (write item) = some item) (items : List α) :
    (items.map write).mapM read = some items := by
  induction items with
  | nil => rfl
  | cons item items ih =>
      rw [List.map_cons, List.mapM_cons, inverse, ih]
      rfl

theorem Json.listOf?_array {read : Json → Option α} {write : α → Json}
    (inverse : ∀ item, read (write item) = some item) (items : List α) :
    (Json.array (items.map write)).listOf? read = some items :=
  mapM_of_inverse inverse items

@[simp] theorem Json.string?_string (text : String) : (Json.string text).string? = some text := rfl

@[simp] theorem Condition.ofJson?_toJson (condition : Condition) :
    Condition.ofJson? condition.toJson = some condition := rfl

@[simp] theorem Mutation.ofJson?_toJson (mutation : Mutation) :
    Mutation.ofJson? mutation.toJson = some mutation := rfl

namespace Operation

@[simp] theorem conditions?_conditionsJson (conditions : List Condition) :
    conditions? (conditionsJson conditions) = some conditions :=
  Json.listOf?_array Condition.ofJson?_toJson conditions

@[simp] theorem columns?_ofStrings (columns : List String) :
    columns? (.ofStrings columns) = some columns :=
  Json.listOf?_array Json.string?_string columns

@[simp] theorem mutations?_array (mutations : List Mutation) :
    mutations? (.array (mutations.map Mutation.toJson)) = some mutations :=
  Json.listOf?_array Mutation.ofJson?_toJson mutations

theorem optional?_columns (columns : List String) :
    Json.optional? columns? (some (.ofStrings columns)) = some (some columns) :=
  congrArg (Option.map some) (columns?_ofStrings columns)

theorem ofJson?_toJson (operation : Operation) : ofJson? operation.toJson = some operation := by
  cases operation with
  | select table conditions columns =>
      cases columns with
      | none => simp [toJson, ofJson?, ofMembers?, Dictionary.find?, Json.string?, Json.optional?]
      | some columns =>
          simp [toJson, ofJson?, ofMembers?, Dictionary.find?, Json.string?, optional?_columns]
  | insert table row =>
      simp [toJson, ofJson?, ofMembers?, Dictionary.find?, Json.string?, Json.object?]
  | update table conditions row =>
      simp [toJson, ofJson?, ofMembers?, Dictionary.find?, Json.string?, Json.object?]
  | mutate table conditions mutations =>
      simp [toJson, ofJson?, ofMembers?, Dictionary.find?, Json.string?]

/-- The values an operation carries: its row and those of its conditions and mutations. -/
def values : Operation → List Json
  | .select _ conditions _ => conditions.map Condition.value
  | .insert _ row => [.object row]
  | .update _ conditions row => .object row :: conditions.map Condition.value
  | .mutate _ conditions mutations =>
      conditions.map Condition.value ++ mutations.map Mutation.value

theorem ordered_conditionsJson {conditions : List Condition}
    (each : ∀ value ∈ conditions.map Condition.value, value.Ordered) :
    (conditionsJson conditions).Ordered := by
  simpa [conditionsJson, Condition.toJson, Json.ordered_array_iff] using each

theorem ordered_mutations {mutations : List Mutation}
    (each : ∀ value ∈ mutations.map Mutation.value, value.Ordered) :
    (Json.array (mutations.map Mutation.toJson)).Ordered := by
  simpa [Mutation.toJson, Json.ordered_array_iff] using each

theorem ordered_ofStrings (texts : List String) : (Json.ofStrings texts).Ordered := by
  simp [Json.ofStrings, Json.ordered_array_iff]

/-- The members of an operation's form are in order; it is up to the values it
carries whether theirs are. -/
theorem ordered_toJson (ordered : ∀ value ∈ operation.values, value.Ordered) :
    operation.toJson.Ordered := by
  cases operation with
  | select table conditions columns =>
      have selected := ordered_conditionsJson ordered
      cases columns with
      | none =>
          exact .object (Dictionary.sorted_of_names ["op", "table", "where"] rfl (by decide))
            (by simp [selected])
      | some columns =>
          exact .object (Dictionary.sorted_of_names ["columns", "op", "table", "where"] rfl (by decide))
            (by simp [selected, ordered_ofStrings])
  | insert table row =>
      have inserted : (Json.object row).Ordered := ordered _ List.mem_cons_self
      exact .object (Dictionary.sorted_of_names ["op", "row", "table"] rfl (by decide))
        (by simp [inserted])
  | update table conditions row =>
      obtain ⟨updated, others⟩ := List.forall_mem_cons.mp ordered
      have selected := ordered_conditionsJson others
      exact .object (Dictionary.sorted_of_names ["op", "row", "table", "where"] rfl (by decide))
        (by simp [updated, selected])
  | mutate table conditions mutations =>
      obtain ⟨conditionValues, mutationValues⟩ := List.forall_mem_append.mp ordered
      have selected := ordered_conditionsJson conditionValues
      have changed := ordered_mutations mutationValues
      exact .object (Dictionary.sorted_of_names ["mutations", "op", "table", "where"] rfl (by decide))
        (by simp [changed, selected])

end Operation

namespace Wire

theorem ordered_request
    (ordered : ∀ operation ∈ operations, ∀ value ∈ operation.values, value.Ordered) :
    (request database operations id).Ordered := by
  have parameters : (Json.array (.string database :: operations.map Operation.toJson)).Ordered := by
    refine .array (List.forall_mem_cons.mpr ⟨.string database, ?_⟩)
    exact List.forall_mem_map.mpr fun operation member =>
      Operation.ordered_toJson (ordered operation member)
  exact .object (Dictionary.sorted_of_names ["id", "method", "params"] rfl (by decide))
    (by simp [parameters])

/-- A peer that reads the bytes of a request, in chunks cut anywhere and with
anything behind them, has its method, its number, the name of the database and
the operations in order.  The values that the operations carry may be any
without floating-point numbers, their objects being dictionaries. -/
theorem request_arrives (database : String) (operations : List Operation) (id : Nat)
    (chunks : List Bytes) (rest : Bytes) (ending : Ending)
    (ordered : ∀ operation ∈ operations, ∀ value ∈ operation.values, value.Ordered)
    (plain : (request database operations id).Plain Json.maxDepth)
    (sent : chunks.flatten = Text.bytes (request database operations id).render ++ rest) :
    ∃ document after encoded,
      (Stream.ofChunks chunks ending).next = (.ok document, after) ∧ after.remaining = rest ∧
        document.get? "method" = some (.string "transact") ∧
        document.get? "id" = some (.integer id) ∧
        document.get? "params" = some (.array (.string database :: encoded)) ∧
        encoded.mapM Operation.ofJson? = some operations := by
  have reads : ∀ bound, Json.Reads false bound takeDocument
      ([] ++ Json.written (request database operations id)) (request database operations id) := by
    intro bound
    have nothing : ∀ byte ∈ ([] : Bytes), isGap byte = true := by simp
    have reads : Json.Reads false bound takeDocument _ _ := reads_document nothing rfl plain.printable
    rw [Json.reread_of_plain plain, Json.canonical_of_ordered (ordered_request ordered)] at reads
    exact reads
  have arrives : (Stream.ofChunks chunks ending).remaining =
      ([] ++ Json.written (request database operations id)) ++ rest := by
    rw [Stream.remaining_ofChunks, sent, Json.bytes_render]
    rfl
  obtain ⟨after, taken, left, _⟩ := Stream.next_of_reads reads arrives
  exact ⟨_, after, operations.map Operation.toJson, taken, left, rfl, rfl, rfl,
    Json.mapM_of_inverse Operation.ofJson?_toJson operations⟩

/-- One operation of each kind, the text cut behind its seventh byte and a
second message begun behind it. -/
theorem four_operations_arrive :
    let operations : List Operation := [
      .select "Interface" [.named "1"] (some ["name", "other_config"]),
      .insert "VLAN" [("admin", .null), ("id", .integer 4095)],
      .update "VLAN" [.equals "id" (.integer (-9223372036854775808))] [("name", .string "é\n")],
      .mutate "System" [] [.insertKey "other_config" "lldp_hold" "6",
        .deleteKey "other_config" "lldp_hold"]]
    let text := Text.bytes (request "OpenSwitch" operations 18446744073709551615).render
    ∃ document after encoded,
      (Stream.ofChunks [text.take 7, text.drop 7 ++ [0x7B]] .silent).next = (.ok document, after) ∧
        after.remaining = [0x7B] ∧
        document.get? "method" = some (.string "transact") ∧
        document.get? "id" = some (.integer (18446744073709551615 : Nat)) ∧
        document.get? "params" = some (.array (.string "OpenSwitch" :: encoded)) ∧
        encoded.mapM Operation.ofJson? = some operations := by
  intro operations text
  refine request_arrives "OpenSwitch" operations 18446744073709551615 _ [0x7B] .silent ?_ ?_ ?_
  · have inserted : Dictionary.Sorted [("admin", Json.null), ("id", Json.integer 4095)] :=
      Dictionary.sorted_of_names ["admin", "id"] rfl (by decide)
    have renamed : Dictionary.Sorted [("name", Json.string "é\n")] := List.pairwise_singleton _ _
    simp [operations, Operation.values, Condition.named, Condition.equals, Mutation.insertKey,
      Mutation.deleteKey, Row.encodeMap, Row.encodePair, Json.ofStrings, inserted, renamed,
      Json.ordered_array_iff, Json.ordered_object_iff]
  · simp [operations, request, Json.maxDepth, Operation.toJson, Operation.conditionsJson,
      Condition.toJson, Mutation.toJson, Condition.named, Condition.equals, Mutation.insertKey,
      Mutation.deleteKey, Row.encodeMap, Row.encodePair, Json.ofStrings, Text.maxSigned64,
      Text.maxUnsigned64]
  · simp only [List.flatten_cons, List.flatten_nil, List.append_nil]
    rw [← List.append_assoc, List.take_append_drop]

end Wire

end SwitchShell
