import SwitchShell.Store.Operation

namespace SwitchShell

/-- Three parts of which the first two are texts. -/
def Json.triple? : Json → Option (String × String × Json)
  | .array [.string first, .string second, third] => some (first, second, third)
  | _ => none

/-- An array all of whose items can be read. -/
def Json.listOf? (read : Json → Option α) (value : Json) : Option (List α) :=
  value.array?.bind fun items => items.mapM read

/-- A part that may be missing or null. -/
def Json.optional? (read : Json → Option α) : Option Json → Option (Option α)
  | none => some none
  | some .null => some none
  | some value => (read value).map some

def Condition.toJson (condition : Condition) : Json :=
  .array [.string condition.column, .string condition.function, condition.value]

def Condition.ofJson? (value : Json) : Option Condition :=
  value.triple?.map fun (column, function, value) => { column, function, value }

def Mutation.toJson (mutation : Mutation) : Json :=
  .array [.string mutation.column, .string mutation.mutator, mutation.value]

def Mutation.ofJson? (value : Json) : Option Mutation :=
  value.triple?.map fun (column, mutator, value) => { column, mutator, value }

namespace Operation

def conditionsJson (conditions : List Condition) : Json :=
  .array (conditions.map Condition.toJson)

def conditions? (value : Json) : Option (List Condition) :=
  value.listOf? Condition.ofJson?

def columns? (value : Json) : Option (List String) :=
  value.listOf? Json.string?

def mutations? (value : Json) : Option (List Mutation) :=
  value.listOf? Mutation.ofJson?

def toJson : Operation → Json
  | .select table conditions columns =>
      .object (columns.toList.map (fun names => ("columns", .ofStrings names)) ++
        [("op", .string "select"), ("table", .string table), ("where", conditionsJson conditions)])
  | .insert table row =>
      .object [("op", .string "insert"), ("row", .object row), ("table", .string table)]
  | .update table conditions row =>
      .object [("op", .string "update"), ("row", .object row), ("table", .string table),
        ("where", conditionsJson conditions)]
  | .mutate table conditions mutations =>
      .object [("mutations", .array (mutations.map Mutation.toJson)), ("op", .string "mutate"),
        ("table", .string table), ("where", conditionsJson conditions)]

/-- An operation from the members of an object. -/
def ofMembers? (members : Dictionary Json) : Option Operation := do
  let member (name : String) : Option Json := Dictionary.find? name members
  let op ← (← member "op").string?
  if op = "select" then
    return .select (← (← member "table").string?) (← conditions? (← member "where"))
      (← Json.optional? columns? (member "columns"))
  else if op = "insert" then
    return .insert (← (← member "table").string?) (← (← member "row").object?)
  else if op = "update" then
    return .update (← (← member "table").string?) (← conditions? (← member "where"))
      (← (← member "row").object?)
  else if op = "mutate" then
    return .mutate (← (← member "table").string?) (← conditions? (← member "where"))
      (← mutations? (← member "mutations"))
  else none

/-- An operation from its parts in order. -/
def ofParts? : List Json → Option Operation
  | [.string "select", .string table, conditions, columns] => do
      return .select table (← conditions? conditions) (← Json.optional? columns? (some columns))
  | [.string "insert", .string table, .object row] => some (.insert table row)
  | [.string "update", .string table, conditions, .object row] => do
      return .update table (← conditions? conditions) row
  | [.string "mutate", .string table, conditions, mutations] => do
      return .mutate table (← conditions? conditions) (← mutations? mutations)
  | _ => none

def ofJson? : Json → Option Operation
  | .object members => ofMembers? members
  | .array parts => ofParts? parts
  | _ => none

end Operation

namespace OperationResult

/-- The form of a result; parts that are empty or absent are left out. -/
def toJson (result : OperationResult) : Json :=
  .object (
    (result.count.map fun count => ("count", .integer count)).toList ++
    (result.details.map fun details => ("details", .string details)).toList ++
    (result.error.map fun error => ("error", .string error)).toList ++
    (if result.rows.isEmpty then [] else [("rows", .array (result.rows.map .object))]) ++
    (result.uuid.map fun uuid => ("uuid", uuid)).toList)

/-- Reads the parts of a result, each of which may be missing. -/
def ofParts? (rows count uuid error details : Option Json) : Option OperationResult := do
  let rows ← match rows with
    | none => some []
    | some value => value.listOf? Json.object?
  return {
    rows,
    count := ← Json.optional? Json.unsigned? count,
    uuid := ← Json.optional? some uuid,
    error := ← Json.optional? Json.string? error,
    details := ← Json.optional? Json.string? details }

def ofJson? : Json → Option OperationResult
  | .object members =>
      ofParts? (Dictionary.find? "rows" members) (Dictionary.find? "count" members)
        (Dictionary.find? "uuid" members) (Dictionary.find? "error" members)
        (Dictionary.find? "details" members)
  | .array parts =>
      if 5 < parts.length then none
      else ofParts? parts[0]? parts[1]? parts[2]? parts[3]? parts[4]?
  | _ => none

/-- A result may also be null, which stands for the empty one. -/
def ofItem? : Json → Option OperationResult
  | .null => some {}
  | value => ofJson? value

end OperationResult

end SwitchShell
