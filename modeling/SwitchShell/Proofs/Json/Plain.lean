import SwitchShell.Json.Printer
import SwitchShell.Json.Reader
import SwitchShell.Proofs.Dictionary

namespace SwitchShell.Json

variable {value : Json}

/-- A value that its text keeps: without floating-point numbers, with whole
numbers of 64 bits, and with at most `depth` arrays and objects inside each
other. -/
inductive Plain : Nat → Json → Prop where
  | null {depth : Nat} : Plain depth .null
  | bool {depth : Nat} (value : Bool) : Plain depth (.bool value)
  | integer {depth : Nat} {value : Int} (low : -(Text.maxSigned64 : Int) - 1 ≤ value)
      (high : value ≤ Text.maxUnsigned64) : Plain depth (.integer value)
  | string {depth : Nat} (value : String) : Plain depth (.string value)
  | array {depth : Nat} {items : List Json} (each : ∀ item ∈ items, Plain depth item) :
      Plain (depth + 1) (.array items)
  | object {depth : Nat} {members : List (String × Json)}
      (each : ∀ member ∈ members, Plain depth member.2) : Plain (depth + 1) (.object members)

mutual

/-- The value with the members of every object as a dictionary. -/
def canonical : Json → Json
  | .array items => .array (canonicalItems items)
  | .object members => .object (Dictionary.ofPairs (canonicalMembers members))
  | value => value

def canonicalItems : List Json → List Json
  | [] => []
  | item :: items => canonical item :: canonicalItems items

def canonicalMembers : List (String × Json) → List (String × Json)
  | [] => []
  | (name, value) :: members => (name, canonical value) :: canonicalMembers members

end

/-- The members of every object are a dictionary already. -/
inductive Ordered : Json → Prop where
  | null : Ordered .null
  | bool (value : Bool) : Ordered (.bool value)
  | integer (value : Int) : Ordered (.integer value)
  | float (value : Float) : Ordered (.float value)
  | string (value : String) : Ordered (.string value)
  | array {items : List Json} (each : ∀ item ∈ items, Ordered item) : Ordered (.array items)
  | object {members : List (String × Json)} (sorted : Dictionary.Sorted members)
      (each : ∀ member ∈ members, Ordered member.2) : Ordered (.object members)

/-- The number that is read from the text of a floating-point number. -/
def rereadFloat (value : Float) : Float :=
  match parse? (floatText value) with
  | some (.float other) => other
  | _ => value

mutual

/-- The value that is read from a text with the members in the given order. -/
def reread : Json → Json
  | .float value => .float (rereadFloat value)
  | .array items => .array (rereadItems items)
  | .object members => .object (Dictionary.ofPairs (rereadMembers members))
  | value => value

def rereadItems : List Json → List Json
  | [] => []
  | item :: items => reread item :: rereadItems items

def rereadMembers : List (String × Json) → List (String × Json)
  | [] => []
  | (name, value) :: members => (name, reread value) :: rereadMembers members

end

/-- A value that has a text: numbers are finite, whole ones have 64 bits, and at
most `depth` arrays and objects are inside each other. -/
inductive Printable : Nat → Json → Prop where
  | null {depth : Nat} : Printable depth .null
  | bool {depth : Nat} (value : Bool) : Printable depth (.bool value)
  | integer {depth : Nat} {value : Int} (low : -(Text.maxSigned64 : Int) - 1 ≤ value)
      (high : value ≤ Text.maxUnsigned64) : Printable depth (.integer value)
  | float {depth : Nat} {value : Float} (finite : value.isFinite = true) : Printable depth (.float value)
  | string {depth : Nat} (value : String) : Printable depth (.string value)
  | array {depth : Nat} {items : List Json} (each : ∀ item ∈ items, Printable depth item) :
      Printable (depth + 1) (.array items)
  | object {depth : Nat} {members : List (String × Json)}
      (each : ∀ member ∈ members, Printable depth member.2) : Printable (depth + 1) (.object members)

section Kinds

variable {depth : Nat} {number : Int} {text : String} {items : List Json}
  {members : List (String × Json)}

@[simp] theorem plain_null : Plain depth .null := .null

@[simp] theorem plain_string : Plain depth (.string text) := .string text

@[simp] theorem plain_integer_iff :
    Plain depth (.integer number) ↔
      -(Text.maxSigned64 : Int) - 1 ≤ number ∧ number ≤ Text.maxUnsigned64 := by
  refine ⟨?_, fun ⟨low, high⟩ => .integer low high⟩
  rintro ⟨⟩
  constructor <;> assumption

@[simp] theorem plain_array_iff :
    Plain (depth + 1) (.array items) ↔ ∀ item ∈ items, Plain depth item := by
  refine ⟨?_, .array⟩
  rintro ⟨⟩
  assumption

@[simp] theorem plain_object_iff :
    Plain (depth + 1) (.object members) ↔ ∀ member ∈ members, Plain depth member.2 := by
  refine ⟨?_, .object⟩
  rintro ⟨⟩
  assumption

@[simp] theorem ordered_null : Ordered .null := .null

@[simp] theorem ordered_integer : Ordered (.integer number) := .integer number

@[simp] theorem ordered_string : Ordered (.string text) := .string text

theorem ordered_array_iff : Ordered (.array items) ↔ ∀ item ∈ items, Ordered item := by
  refine ⟨?_, .array⟩
  rintro ⟨⟩
  assumption

theorem ordered_object_iff :
    Ordered (.object members) ↔
      Dictionary.Sorted members ∧ ∀ member ∈ members, Ordered member.2 := by
  refine ⟨?_, fun ⟨sorted, each⟩ => .object sorted each⟩
  rintro ⟨⟩
  constructor <;> assumption

end Kinds

theorem Plain.printable {depth : Nat} (plain : Plain depth value) : Printable depth value := by
  induction plain with
  | null => exact .null
  | bool value => exact .bool value
  | integer low high => exact .integer low high
  | string value => exact .string value
  | array _ ih => exact .array ih
  | object _ ih => exact .object ih

theorem rereadItems_eq_map (items : List Json) : rereadItems items = items.map reread := by
  induction items with
  | nil => rw [rereadItems, List.map_nil]
  | cons item items ih => rw [rereadItems, ih, List.map_cons]

theorem rereadMembers_eq_map (members : List (String × Json)) :
    rereadMembers members = members.map fun member => (member.1, member.2.reread) := by
  induction members with
  | nil => rw [rereadMembers, List.map_nil]
  | cons member members ih => rw [rereadMembers, ih, List.map_cons]

theorem canonicalItems_eq_map (items : List Json) : canonicalItems items = items.map canonical := by
  induction items with
  | nil => rw [canonicalItems, List.map_nil]
  | cons item items ih => rw [canonicalItems, ih, List.map_cons]

theorem canonicalMembers_eq_map (members : List (String × Json)) :
    canonicalMembers members = members.map fun member => (member.1, member.2.canonical) := by
  induction members with
  | nil => rw [canonicalMembers, List.map_nil]
  | cons member members ih => rw [canonicalMembers, ih, List.map_cons]

/-- Without floating-point numbers only the order of members is lost. -/
theorem reread_of_plain {depth : Nat} (plain : Plain depth value) : value.reread = value.canonical := by
  induction plain with
  | array _ ih =>
      rw [reread, canonical, rereadItems_eq_map, canonicalItems_eq_map, List.map_congr_left ih]
  | object _ ih =>
      rw [reread, canonical, rereadMembers_eq_map, canonicalMembers_eq_map,
        List.map_congr_left fun member present => congrArg (Prod.mk member.1) (ih member present)]
  | _ => rfl

theorem map_eq_self {α : Type} {items : List α} {change : α → α}
    (each : ∀ item ∈ items, change item = item) : items.map change = items :=
  (List.map_congr_left (g := id) each).trans (List.map_id items)

theorem canonical_of_ordered (ordered : Ordered value) : value.canonical = value := by
  induction ordered with
  | array _ ih => rw [canonical, canonicalItems_eq_map, map_eq_self ih]
  | object sorted _ ih =>
      rw [canonical, canonicalMembers_eq_map,
        map_eq_self fun member present => congrArg (Prod.mk member.1) (ih member present),
        Dictionary.ofPairs_of_sorted sorted]
  | _ => rfl

mutual

/-- The floating-point numbers of a value. -/
def floats : Json → List Float
  | .float value => [value]
  | .array items => itemFloats items
  | .object members => memberFloats members
  | _ => []

def itemFloats : List Json → List Float
  | [] => []
  | item :: items => floats item ++ itemFloats items

def memberFloats : List (String × Json) → List Float
  | [] => []
  | (_, value) :: members => floats value ++ memberFloats members

end

theorem itemFloats_eq_flatMap (items : List Json) : itemFloats items = items.flatMap floats := by
  induction items with
  | nil => rw [itemFloats, List.flatMap_nil]
  | cons item items ih => rw [itemFloats, ih, List.flatMap_cons]

theorem memberFloats_eq_flatMap (members : List (String × Json)) :
    memberFloats members = members.flatMap fun member => member.2.floats := by
  induction members with
  | nil => rw [memberFloats, List.flatMap_nil]
  | cons member members ih => rw [memberFloats, ih, List.flatMap_cons]

/-- A value is read as it is if each of its floating-point numbers is. -/
theorem reread_of_ordered (ordered : Ordered value)
    (kept : ∀ number ∈ value.floats, rereadFloat number = number) : value.reread = value := by
  induction ordered with
  | float number => exact congrArg Json.float (kept number (by simp [floats]))
  | @array items _ ih =>
      rw [floats, itemFloats_eq_flatMap] at kept
      have each : ∀ item ∈ items, item.reread = item := fun item member =>
        ih item member fun number present => kept number (List.mem_flatMap.mpr ⟨item, member, present⟩)
      rw [reread, rereadItems_eq_map, map_eq_self each]
  | @object members sorted _ ih =>
      rw [floats, memberFloats_eq_flatMap] at kept
      have each : ∀ member ∈ members, (member.1, member.2.reread) = member := fun member present =>
        congrArg (Prod.mk member.1) <| ih member present fun number inside =>
          kept number (List.mem_flatMap.mpr ⟨member, present, inside⟩)
      rw [reread, rereadMembers_eq_map, map_eq_self each, Dictionary.ofPairs_of_sorted sorted]
  | _ => rfl

/-- The members of an object are read one by one. -/
theorem find?_rereadMembers (name : String) (members : Dictionary Json) :
    Dictionary.find? name (rereadMembers members) = (Dictionary.find? name members).map reread := by
  induction members with
  | nil => rfl
  | cons member members ih =>
      rw [rereadMembers, Dictionary.find?, Dictionary.find?, ih]
      split <;> rfl

theorem sorted_rereadMembers {members : Dictionary Json} (sorted : Dictionary.Sorted members) :
    Dictionary.Sorted (rereadMembers members) := by
  rw [rereadMembers_eq_map]
  exact List.pairwise_map.mpr sorted

/-- Only a whole number is read as one. -/
theorem reread_eq_integer_iff {number : Int} : value.reread = .integer number ↔ value = .integer number := by
  cases value <;> simp [reread]

end SwitchShell.Json
