import SwitchShell.Proofs.Feature.Change

namespace SwitchShell.Feature

open Request Feature.Configuration

/-- There is a VLAN of that number. -/
def HasVlan (memory : Memory) (id : Int) : Prop :=
  ∃ row ∈ memory.rows vlanTable, Dictionary.find? "id" row = some (.integer id)

/-- There is an interface of that name. -/
def HasPort (memory : Memory) (name : String) : Prop :=
  ∃ row ∈ memory.rows interfaceTable, Dictionary.find? "name" row = some (.string name)

/-- The rows are sound, and every VLAN is to be up or down. -/
structure Administered (memory : Memory) : Prop where
  sound : Sound memory
  admin : ∀ row ∈ memory.rows vlanTable, ∃ up,
    Dictionary.find? "admin" row = some (.string (adminText up))

variable {memory other : Memory} {request : Request} {requests : List Request} {id : Int}
  {name : String} {row : Row}

theorem hasVlan_iff_mem_ids (sound : Sound memory) :
    HasVlan memory id ↔ id ∈ (ofMemory memory).vlans.map Prod.fst := by
  rw [ids_ofMemory, List.mem_map]
  refine exists_congr fun row => and_congr_right fun member => ?_
  obtain ⟨number, column, same, _⟩ := sound.exists_id member
  rw [column, same, Option.some.injEq, Json.integer.injEq]

theorem hasPort_iff_mem_ports (sound : Sound memory) : HasPort memory name ↔ name ∈ ports := by
  constructor
  · rintro ⟨row, member, isRow⟩
    obtain ⟨listed, among, isListed⟩ := sound.exists_name member
    cases isRow.symm.trans isListed
    exact among
  · exact sound.exists_port

/-- No request takes a VLAN away: it leaves them as they are, or makes one, or
switches some of them. -/
theorem Sound.vlans_effect (sound : Sound memory) (request : Request) :
    (Request.effect memory request).rows vlanTable = memory.rows vlanTable ∨
      (∃ id uuid, (Request.effect memory request).rows vlanTable =
        memory.rows vlanTable ++ [Dictionary.insert "_uuid" uuid (Vlan.newRow id)]) ∨
      ∃ id up, (Request.effect memory request).rows vlanTable =
        switchRows id up (memory.rows vlanTable) := by
  have ofEntry : ∀ {entry : Entry}, request.target? = some (.entry entry) →
      (Request.effect memory request).rows vlanTable = memory.rows vlanTable := by
    intro entry about
    unfold Request.effect
    cases planned : request.plan memory with
    | none => rfl
    | some operation =>
        obtain ⟨results, written⟩ := exists_writes planned
        obtain ⟨value?, rfl⟩ := writtenBy_of_writes written about
        exact Sound.vlans_put
  cases request with
  | setting _ _ | clear _ | direct _ _ | administer _ _ => exact .inl (ofEntry rfl)
  | create id =>
      rw [sound.effect_create]
      split
      · exact .inl rfl
      · exact .inr (.inl ⟨id, _, Sound.rows_revised sound.revised_create⟩)
  | switch id up => exact .inr (.inr ⟨id, up, Sound.rows_revised sound.revised_switch⟩)

namespace Administered

theorem initial : Administered Memory.initial where
  sound := .initial
  admin row member := by
    rw [List.mem_singleton.mp member]
    exact ⟨true, rfl⟩

theorem of_tables (administered : Administered memory) (same : other.tables = memory.tables) :
    Administered other := by
  obtain ⟨tables, serial⟩ := other
  cases same
  obtain ⟨sound, admin⟩ := administered
  exact ⟨{ sound with sorted := ⟨sound.sorted.tables, sound.sorted.rows⟩ }, admin⟩

theorem find?_switched_admin (up : Bool) :
    Dictionary.find? "admin" (row.merge [("admin", .string (adminText up))]) =
      some (.string (adminText up)) :=
  Dictionary.find?_insert_self _ _ _

theorem effect (administered : Administered memory) (valid : request.Valid) :
    Administered (Request.effect memory request) := by
  refine ⟨administered.sound.effect valid, ?_⟩
  rcases administered.sound.vlans_effect request with same | ⟨id, uuid, made⟩ | ⟨id, up, switched⟩
  · exact same ▸ administered.admin
  · rw [made]
    exact List.forall_mem_append.mpr
      ⟨administered.admin, List.forall_mem_singleton.mpr ⟨false, rfl⟩⟩
  · rw [switched]
    intro row member
    obtain ⟨before, inside, rfl⟩ := List.mem_map.mp member
    split
    · exact ⟨up, find?_switched_admin up⟩
    · exact administered.admin before inside

end Administered

theorem HasVlan.effect (present : HasVlan memory id) (sound : Sound memory) (request : Request) :
    HasVlan (Request.effect memory request) id := by
  obtain ⟨row, member, isRow⟩ := present
  rcases sound.vlans_effect request with same | ⟨made, uuid, rows⟩ | ⟨target, up, rows⟩
  · exact ⟨row, same ▸ member, isRow⟩
  · exact ⟨row, rows ▸ List.mem_append_left _ member, isRow⟩
  · rw [HasVlan, rows]
    refine ⟨_, List.mem_map_of_mem member, ?_⟩
    split
    · exact Sound.find?_switched.trans isRow
    · exact isRow

theorem hasVlan_effect_create (sound : Sound memory) :
    HasVlan (Request.effect memory (create id)) id := by
  rw [sound.effect_create]
  split
  · rename_i listed
    exact (hasVlan_iff_mem_ids sound).mpr listed
  · let insertion : Operation := .insert vlanTable (Vlan.newRow id)
    have made : (Memory.transact [insertion] memory).2.rows vlanTable = _ :=
      Sound.rows_revised sound.revised_create
    rw [HasVlan, made]
    exact ⟨_, List.mem_append_right _ (List.mem_singleton_self _), rfl⟩

theorem HasVlan.of_tables (present : HasVlan memory id) (same : other.tables = memory.tables) :
    HasVlan other id := by
  unfold HasVlan Memory.rows at present ⊢
  exact same ▸ present

/-- What is in order stays so, and VLANs stay, whatever requests are made. -/
theorem Administered.foldl_effect (administered : Administered memory)
    (valid : ∀ request ∈ requests, request.Valid) :
    Administered (requests.foldl Request.effect memory) ∧
      ∀ id, HasVlan memory id → HasVlan (requests.foldl Request.effect memory) id := by
  induction requests generalizing memory with
  | nil => exact ⟨administered, fun _ present => present⟩
  | cons request requests ih =>
      obtain ⟨first, others⟩ := List.forall_mem_cons.mp valid
      obtain ⟨kept, stays⟩ := ih (administered.effect first) others
      exact ⟨kept, fun id present => stays id (present.effect administered.sound request)⟩

end SwitchShell.Feature
