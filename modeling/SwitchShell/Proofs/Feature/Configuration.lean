import Mathlib.Data.List.Nodup
import SwitchShell.Proofs.Feature.Request
import SwitchShell.Proofs.Grammar.Numeral
import SwitchShell.Proofs.Store.Select

namespace SwitchShell.Feature

/-! The configuration that a database in memory holds, and the lines that make it.

A configuration leaves out what the running configuration does not show: rows
become functions of keys and names, and only the VLANs stay a list.
-/

open Request

/-- The interfaces of the small switch, in natural order. -/
def ports : List String := ["1", "2", "3", "4", "bridge_normal"]

structure Configuration where
  setting : String → Option String
  vlans : List (Int × Bool)
  direction : String → Lldp.Direction
  up : String → Bool

/-- A global setting, with the line that makes a value unless it is the default. -/
structure Setting where
  key : String
  line? : String → Option String

namespace Setting

def enable : Setting where
  key := Lldp.enableKey
  line? value := if value = "true" then some "lldp enable" else none

/-- A setting that is shown unless it has its initial value. -/
def number (key initial start : String) : Setting where
  key := key
  line? value := if value = initial then none else some (start ++ value)

def holdTime : Setting := number Lldp.holdTimeKey Lldp.defaultHoldTime "lldp holdtime "

def interval : Setting := number Lldp.intervalKey Lldp.defaultInterval "lldp timer "

def advertise (advertisement : Lldp.Advertisement) : Setting where
  key := advertisement.key
  line? value :=
    if value = "true" then none else some ("no lldp select-tlv " ++ advertisement.word)

/-- All settings in the order in which they are shown. -/
def all : List Setting :=
  [enable, holdTime, interval] ++ Lldp.advertisements.map advertise

end Setting

namespace Configuration

variable {memory : Memory} {config : Configuration} {row : Row} {name : String}

/-- The number of a VLAN, and whether it is up. -/
def vlanOf (row : Row) : Int × Bool :=
  (Vlan.rowId row, decide (row.textAt? "admin" = some "up"))

/-- The rows of a database as a configuration. -/
def ofMemory (memory : Memory) : Configuration where
  setting key := (settingAt key).read memory
  vlans := (memory.rows vlanTable).map vlanOf
  direction name := Lldp.Direction.parse ((directionAt name).read memory)
  up name := decide ((stateAt name).read memory = some "up")

theorem ids_ofMemory :
    (ofMemory memory).vlans.map Prod.fst = (memory.rows vlanTable).map Vlan.rowId :=
  List.map_map ..

def settingLine? (config : Configuration) (setting : Setting) : Option String :=
  (config.setting setting.key).bind setting.line?

def settingLines (config : Configuration) : List String :=
  Setting.all.flatMap fun setting => (config.settingLine? setting).toList

def upLine : String := "    no shutdown"

def vlanLine (id : Int) : String := "vlan " ++ toString id

def vlanLines (vlan : Int × Bool) : List String :=
  vlanLine vlan.1 :: if vlan.2 then [upLine] else []

def sortVlans (vlans : List (Int × Bool)) : List (Int × Bool) :=
  vlans.mergeSort fun left right => left.1 ≤ right.1

def receptionLine : String := "    no lldp reception"

def transmissionLine : String := "    no lldp transmission"

def portBlock (direction : Lldp.Direction) (up : Bool) : List String :=
  (if direction.receive then [] else [receptionLine]) ++
    (if direction.transmit then [] else [transmissionLine]) ++ if up then [upLine] else []

def portLine (name : String) : String := "interface " ++ name

def portLines (config : Configuration) (name : String) : List String :=
  let block := portBlock (config.direction name) (config.up name)
  if block.isEmpty then [] else portLine name :: block

/-- The lines that make the configuration. -/
def lines (config : Configuration) : List String :=
  config.settingLines ++ (sortVlans config.vlans).flatMap vlanLines ++
    ports.flatMap config.portLines

end Configuration

/-- A number within bounds, written without leading zeros. -/
def IsNumber (low high : Nat) (value : String) : Prop :=
  ∃ number : Nat, low ≤ number ∧ number ≤ high ∧ value = toString number

/-- What a setting may be set to. -/
def Admits (key value : String) : Prop :=
  (key = Lldp.holdTimeKey → IsNumber 2 10 value) ∧ (key = Lldp.intervalKey → IsNumber 5 32768 value)

/-- The rows that the built-in commands rely on, and leave behind. -/
structure Sound (memory : Memory) : Prop where
  sorted : memory.Sorted
  system : memory.rows systemTable ≠ []
  named : (memory.rows interfaceTable).map (Dictionary.find? "name") =
    ports.map fun name => some (.string name)
  numbered : ∀ row ∈ memory.rows vlanTable, ∃ id : Nat,
    Dictionary.find? "id" row = some (.integer id) ∧ 1 ≤ id ∧ id ≤ 4095
  different : ((memory.rows vlanTable).map Vlan.rowId).Nodup
  first : 1 ∈ (memory.rows vlanTable).map Vlan.rowId
  admits : ∀ key value, (settingAt key).read memory = some value → Admits key value

namespace Sound

open Feature.Configuration

variable {memory : Memory} {row : Row} {name : String}

theorem initial : Sound Memory.initial where
  sorted := Memory.sorted_withHostname "switch"
  system := List.cons_ne_nil _ _
  named := rfl
  numbered row member := by
    rw [List.mem_singleton.mp member]
    exact ⟨1, rfl, Nat.le_refl 1, by decide⟩
  different := List.nodup_singleton _
  first := List.mem_singleton_self _
  admits key value bound := by
    refine ⟨?_, ?_⟩ <;> rintro rfl <;> cases bound

theorem interfaces (sound : Sound memory) : memory.rows interfaceTable ≠ [] := by
  intro empty
  have named := sound.named
  rw [empty] at named
  contradiction

theorem vlans (sound : Sound memory) : memory.rows vlanTable ≠ [] := by
  intro empty
  have first := sound.first
  rw [empty] at first
  contradiction

theorem exists_name (sound : Sound memory) (member : row ∈ memory.rows interfaceTable) :
    ∃ name ∈ ports, Dictionary.find? "name" row = some (.string name) := by
  have inside := List.mem_map_of_mem (f := Dictionary.find? "name") member
  rw [sound.named] at inside
  obtain ⟨name, listed, same⟩ := List.mem_map.mp inside
  exact ⟨name, listed, same.symm⟩

theorem exists_port (sound : Sound memory) (listed : name ∈ ports) :
    ∃ row ∈ memory.rows interfaceTable, Dictionary.find? "name" row = some (.string name) := by
  have inside : some (Json.string name) ∈ ports.map fun name => some (Json.string name) :=
    List.mem_map_of_mem listed
  rw [← sound.named] at inside
  exact List.mem_map.mp inside

end Sound

section Shown

open Feature.Configuration

variable {memory : Memory} {config : Dictionary String} {row : Row} {name value : String}

theorem answer_names (sound : Sound memory) :
    Query.answer Memory.transact (Query.names [.interface]) memory =
      (.ok { interfaces := ports }, memory) := by
  have columns : ∀ row : Row,
      (Memory.project row (some ["name"])).textAt? "name" = row.textAt? "name" :=
    fun row => Memory.textAt?_project List.mem_cons_self
  have names : (memory.rows interfaceTable).map (fun row => row.textAt? "name") =
      ports.map some := by
    have texts := congrArg (List.map fun value? : Option Json => value?.bind Json.string?)
      sound.named
    rw [List.map_map] at texts
    exact texts
  have inOrder : Text.naturalSort ports = ports := List.mergeSort_of_pairwise (by decide)
  have read : ((memory.rows interfaceTable).map fun row =>
      Memory.project row (some ["name"])).filterMap (fun row => row.textAt? "name") = ports := by
    have plain := congrArg (List.filterMap id) names
    rw [List.filterMap_map, List.filterMap_map] at plain
    rw [List.filterMap_map]
    simpa [Function.comp_def, columns] using plain
  have asked : Query.answer Memory.transact Query.interfaceNames memory = (.ok ports, memory) := by
    rw [Query.interfaceNames, Query.answer_bind,
      Memory.answer_select sound.sorted sound.interfaces (List.forall_mem_nil _)]
    simp only [Query.answer_pure, Memory.filter_meets_nil, read, inOrder]
  rw [Query.names, Query.answer_bind, asked]
  rfl

end Shown

end SwitchShell.Feature
