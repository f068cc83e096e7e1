import SwitchShell.Store.Program
import SwitchShell.Store.Query

namespace SwitchShell

/-! A database in memory.

Transactions are atomic: the operations work on a copy of the tables, which
takes their place only if no operation failed.
-/

abbrev Tables := Dictionary (List Row)

/-- Tables and the serial number of the next row to be inserted. -/
structure Memory where
  tables : Tables
  serial : Nat := 1

namespace Memory

def systemRow (hostname : String) : Row :=
  Dictionary.ofPairs [
    ("hostname", .string hostname),
    ("mgmt_intf_status", Row.encodeMap [
      ("hostname", hostname),
      ("link_state", "up"),
      ("ip", "192.168.1.10"),
      ("subnet_mask", "24"),
      ("default_gateway", "192.168.1.1")]),
    ("other_config", Row.encodeMap [
      ("min_internal_vlan", "1024"),
      ("max_internal_vlan", "4094"),
      ("internal_vlan_policy", "ascending")]),
    ("status", Row.encodeMap []),
    ("software_info", Row.encodeMap [
      ("os_name", "OpenSwitch"),
      ("build_id", "0.1.0")]),
    ("switch_info", Row.encodeMap [
      ("product_name", "Mock switch"),
      ("vendor", "Mock"),
      ("serial_number", "0000")])]

def interfaceRow (name kind : String) : Row :=
  Dictionary.ofPairs [
    ("name", .string name),
    ("type", .string kind),
    ("admin_state", .string "down"),
    ("link_state", .string "down"),
    ("mtu", .integer 1500),
    ("link_speed", .integer 1000000000),
    ("link_resets", .integer 0),
    ("duplex", .string "full"),
    ("mac_in_use", .string "00:00:00:00:00:00"),
    ("user_config", Row.encodeMap [("admin", "down")]),
    ("other_config", Row.encodeMap []),
    ("hw_intf_info", Row.encodeMap [
      ("connector", "SFP_PLUS"),
      ("max_speed", "10000"),
      ("pluggable", "true")])]

def vlanRow (id : Int) (name : String) : Row :=
  Dictionary.ofPairs [
    ("id", .integer id),
    ("name", .string name),
    ("admin", .string "up"),
    ("oper_state", .string "up"),
    ("oper_state_reason", .string "ok"),
    ("internal_usage", Row.encodeMap [])]

/-- A small switch: a system row, four ports, a bridge and VLAN 1. -/
def withHostname (hostname : String) : Memory :=
  { tables := Dictionary.ofPairs [
      (systemTable, [systemRow hostname]),
      (interfaceTable,
        (["1", "2", "3", "4"].map fun name => interfaceRow name "system") ++
          [interfaceRow "bridge_normal" "internal"]),
      (vlanTable, [vlanRow 1 "DEFAULT_VLAN_1"])] }

def initial : Memory := withHostname "switch"

/-- All rows of a table; a missing table has none. -/
def rows (memory : Memory) (table : String) : List Row :=
  (Dictionary.find? table memory.tables).getD []

/-- The row meets one condition.  A missing column counts as null. -/
def holds (row : Row) (condition : Condition) : Except Fault Bool :=
  let actual := (Dictionary.find? condition.column row).getD .null
  if condition.function = "==" then .ok (actual == condition.value)
  else if condition.function = "!=" then .ok (actual != condition.value)
  else .error (.database (.unsupportedFunction condition.function))

/-- The row meets all conditions.  Those after the first one it fails do not matter. -/
def holdsAll (row : Row) : List Condition → Except Fault Bool
  | [] => .ok true
  | condition :: conditions => do
      if ← holds row condition then holdsAll row conditions else return false

/-- The named columns of a row. -/
def project (row : Row) : Option (List String) → Row
  | none => row
  | some columns =>
      Dictionary.ofPairs (columns.filterMap fun column =>
        (Dictionary.find? column row).map fun value => (column, value))

/-- The keys that a `delete` names: a set of keys or the keys of a map. -/
def deletedKeys : Json → List String
  | .array [.string tag, .array items] =>
      if tag = "set" then items.map Row.atomText
      else (Row.decodeMap (.array [.string tag, .array items])).keys
  | _ => []

/-- A map after a mutation.  What `insert` finds bound stays as it is. -/
def mutateMap (entries : Dictionary String) (mutation : Mutation) :
    Except Fault (Dictionary String) :=
  if mutation.mutator = "insert" then
    .ok ((Row.decodeMap mutation.value).foldl
      (fun entries (key, value) => entries.insertNew key value) entries)
  else if mutation.mutator = "delete" then
    .ok ((deletedKeys mutation.value).foldl (fun entries key => entries.erase key) entries)
  else .error (.database (.unsupportedMutator mutation.mutator))

def mutateRow (row : Row) (mutation : Mutation) : Except Fault Row := do
  let entries ← mutateMap (row.mapAt mutation.column) mutation
  return Dictionary.insert mutation.column (Row.encodeMap entries) row

/-- Changes the rows that meet the conditions; gives the new rows and the number
of those changed. -/
def changeRows (conditions : List Condition) (change : Row → Except Fault Row) :
    List Row → Except Fault (List Row × Nat)
  | [] => .ok ([], 0)
  | row :: rows => do
      if ← holdsAll row conditions then
        let changed ← change row
        let (rows, count) ← changeRows conditions change rows
        return (changed :: rows, count + 1)
      else
        let (rows, count) ← changeRows conditions change rows
        return (row :: rows, count)

def rowIdentifier (serial : Nat) : Json :=
  .ofStrings ["uuid", "00000000-0000-0000-0000-" ++ Text.padZeros 12 serial]

/-- What an operation makes of the rows of its table. -/
def executeOn (serial : Nat) (rows : List Row) :
    Operation → Except Fault (OperationResult × List Row)
  | .select _ conditions columns => do
      let selected ← rows.filterM fun row => holdsAll row conditions
      return ({ rows := selected.map fun row => project row columns }, rows)
  | .insert _ row =>
      let uuid := rowIdentifier serial
      .ok ({ uuid := some uuid }, rows ++ [Dictionary.insert "_uuid" uuid row])
  | .update _ conditions values => do
      let (rows, count) ← changeRows conditions (fun row => .ok (row.merge values)) rows
      return ({ count := some count }, rows)
  | .mutate _ conditions mutations => do
      let (rows, count) ← changeRows conditions (fun row => mutations.foldlM mutateRow row) rows
      return ({ count := some count }, rows)

/-- The serial number after an operation on a table that exists.  Serial numbers
have 64 bits. -/
def nextSerial (serial : Nat) : Operation → Nat
  | .insert _ _ => (serial + 1) % (Text.maxUnsigned64 + 1)
  | _ => serial

/-- Executes operations on working tables until one fails.  The serial number
of an inserted row is used up even if a later operation fails. -/
def execute : List Operation → Memory → Except Fault (List OperationResult × Tables) × Nat
  | [], memory => (.ok ([], memory.tables), memory.serial)
  | operation :: operations, memory =>
      match Dictionary.find? operation.table memory.tables with
      | none => (.error (.database (.unknownTable operation.table)), memory.serial)
      | some rows =>
          match executeOn memory.serial rows operation with
          | .error fault => (.error fault, memory.serial)
          | .ok (result, rows) =>
              match execute operations
                { tables := memory.tables.insert operation.table rows,
                  serial := nextSerial memory.serial operation } with
              | (.ok (results, tables), serial) => (.ok (result :: results, tables), serial)
              | (.error fault, serial) => (.error fault, serial)

/-- Answers a transaction: all of it happens or nothing does. -/
def transact : Backend Memory := fun operations memory =>
  match execute operations memory with
  | (.ok (results, tables), serial) => (.ok results, { tables, serial })
  | (.error fault, serial) => (.error fault, { memory with serial })

end Memory

/-- A backend that cannot be reached. -/
def unreachable : Backend σ := fun _ state => (.error (.database .refused), state)

end SwitchShell
