import Mathlib.Logic.Function.Basic
import SwitchShell.Proofs.Feature.Configuration
import SwitchShell.Proofs.Feature.Effect

namespace SwitchShell.Feature

open Request Feature.Configuration

/-- The request sets nothing to what the grammar does not let through. -/
def Request.Valid : Request → Prop
  | setting key value? => ∀ value, value? = some value → Admits key value
  | create id => 1 ≤ id ∧ id ≤ 4095
  | clear _ | direct _ _ | administer _ _ | switch _ _ => True

/-- The interface or the VLAN of the request is there. -/
def Request.Known (config : Configuration) : Request → Prop
  | direct name _ | administer name _ => name ∈ ports
  | switch id _ => id ∈ config.vlans.map Prod.fst
  | setting _ _ | clear _ | create _ => True

def Configuration.change (config : Configuration) : Request → Configuration
  | .setting key value? => { config with setting := Function.update config.setting key value? }
  | .clear _ => config
  | .direct name arguments =>
      { config with direction :=
          Function.update config.direction name ((config.direction name).after arguments) }
  | .administer name up => { config with up := Function.update config.up name up }
  | .create id =>
      if id ∈ config.vlans.map Prod.fst then config
      else { config with vlans := config.vlans ++ [(id, false)] }
  | .switch id up =>
      { config with vlans := config.vlans.map fun vlan => if vlan.1 = id then (id, up) else vlan }

variable {memory : Memory} {request : Request} {entry : Entry} {value? : Option String} {row : Row}
  {rows : List Row} {operation : Operation} {id : Int} {up : Bool} {name : String}

namespace Sound

theorem system_present (sound : Sound memory) {column key : String} :
    (memory.rows systemTable).any (Memory.meets (Entry.system column key).conditions) = true := by
  obtain ⟨row, others, rows⟩ := List.exists_cons_of_ne_nil sound.system
  rw [rows]
  rfl

theorem vlans_put :
    (Memory.transact [entry.put value?] memory).2.rows vlanTable = memory.rows vlanTable := by
  rw [Entry.rows_put, if_neg]
  cases entry <;> simp [Entry.table, vlanTable, systemTable, interfaceTable]

theorem put (sound : Sound memory) (unnamed : entry.column ≠ "name")
    (admits : ∀ key value, entry = settingAt key → value? = some value → Admits key value) :
    Sound (Memory.transact [entry.put value?] memory).2 := by
  have vlans := @vlans_put memory entry value?
  refine ⟨Entry.sorted_put sound.sorted, ?_, ?_, ?_, ?_, ?_, fun key value bound => ?_⟩
  · rw [Entry.rows_put]
    split <;> simp [Entry.putRows, Memory.changed, sound.system]
  · rw [Entry.rows_put]
    split
    · rw [Entry.putRows, Memory.changed, List.map_map,
        Memory.comp_ite fun _ => Row.find?_put_of_ne (Ne.symm unnamed), sound.named]
    · exact sound.named
  · exact vlans ▸ sound.numbered
  · exact vlans ▸ sound.different
  · exact vlans ▸ sound.first
  · by_cases same : entry = settingAt key
    · subst same
      rw [Entry.read_put_self unnamed sound.system_present] at bound
      exact admits key value rfl bound
    · rw [Entry.read_put (Ne.symm same) unnamed] at bound
      exact sound.admits key value bound

theorem exists_id (sound : Sound memory) (member : row ∈ memory.rows vlanTable) :
    ∃ number : Nat, Dictionary.find? "id" row = some (.integer number) ∧
      Vlan.rowId row = number ∧ 1 ≤ number ∧ number ≤ 4095 := by
  obtain ⟨number, column, low, high⟩ := sound.numbered row member
  have bounds : -(Text.maxSigned64 : Int) - 1 ≤ number ∧ (number : Int) ≤ Text.maxSigned64 := by
    simp only [Text.maxSigned64]
    omega
  exact ⟨number, column, by simp [Vlan.rowId, column, Json.signed?, bounds], low, high⟩

theorem meets_identified (sound : Sound memory) (member : row ∈ memory.rows vlanTable) (id : Int) :
    Memory.meets [Vlan.identified id] row = (Vlan.rowId row == id) := by
  obtain ⟨number, column, same, _⟩ := sound.exists_id member
  simp only [Memory.meets, Vlan.identified, Condition.equals, List.all_cons, List.all_nil, column,
    Option.getD_some, Bool.and_true, same]
  rfl

theorem any_identified (sound : Sound memory) (id : Int) :
    (memory.rows vlanTable).any (Memory.meets [Vlan.identified id]) =
      decide (id ∈ (ofMemory memory).vlans.map Prod.fst) := by
  rw [ids_ofMemory, Bool.eq_iff_iff, List.any_eq_true, decide_eq_true_eq, List.mem_map]
  refine exists_congr fun row => and_congr_right fun member => ?_
  rw [sound.meets_identified member, beq_iff_eq]

theorem rows_revised (revised : Memory.revised memory operation = some rows) :
    (Memory.transact [operation] memory).2.rows operation.table = rows := by
  simp [Memory.snd_transact_one, revised, Memory.rows]

theorem rows_transact_of_ne {table : String} (apart : table ≠ operation.table) :
    (Memory.transact [operation] memory).2.rows table = memory.rows table := by
  rw [Memory.rows, Memory.find?_transact_of_ne apart, Memory.rows]

/-- Whatever becomes of the VLANs, the other rows stay sound. -/
theorem ofVlans (sound : Sound memory) (table : operation.table = vlanTable)
    (inserts : Memory.InsertsSorted operation)
    (revised : Memory.revised memory operation = some rows)
    (numbered : ∀ row ∈ rows, ∃ id : Nat,
      Dictionary.find? "id" row = some (.integer id) ∧ 1 ≤ id ∧ id ≤ 4095)
    (different : (rows.map Vlan.rowId).Nodup) (first : 1 ∈ rows.map Vlan.rowId) :
    Sound (Memory.transact [operation] memory).2 := by
  have vlans := table ▸ rows_revised revised
  have system : (Memory.transact [operation] memory).2.rows systemTable =
      memory.rows systemTable := rows_transact_of_ne (table ▸ by decide)
  have interfaces : (Memory.transact [operation] memory).2.rows interfaceTable =
      memory.rows interfaceTable := rows_transact_of_ne (table ▸ by decide)
  refine ⟨sound.sorted.transact (List.forall_mem_singleton.mpr inserts), ?_, ?_, ?_, ?_, ?_,
    fun key value bound => ?_⟩
  · exact system ▸ sound.system
  · exact interfaces ▸ sound.named
  · exact vlans ▸ numbered
  · exact vlans ▸ different
  · exact vlans ▸ first
  · refine sound.admits key value ?_
    simpa [Entry.read, settingAt, Entry.table, system] using bound

theorem revised_create (sound : Sound memory) :
    Memory.revised memory (.insert vlanTable (Vlan.newRow id)) =
      some (memory.rows vlanTable ++
        [Dictionary.insert "_uuid" (Memory.rowIdentifier memory.serial) (Vlan.newRow id)]) := by
  rw [Request.revised_create, Memory.find?_of_rows sound.vlans, Option.map_some]

theorem revised_switch (sound : Sound memory) :
    Memory.revised memory
        (.update vlanTable [Vlan.identified id] [("admin", .string (adminText up))]) =
      some (switchRows id up (memory.rows vlanTable)) := by
  rw [Request.revised_switch, Memory.find?_of_rows sound.vlans, Option.map_some]

theorem rowId_newRow (low : 1 ≤ id) (high : id ≤ 4095) (uuid : Json) :
    Vlan.rowId (Dictionary.insert "_uuid" uuid (Vlan.newRow id)) = id := by
  have column : Dictionary.find? "id" (Dictionary.insert "_uuid" uuid (Vlan.newRow id)) =
      some (.integer id) := rfl
  have bounds : -(Text.maxSigned64 : Int) - 1 ≤ id ∧ id ≤ (Text.maxSigned64 : Int) := by
    simp only [Text.maxSigned64]
    omega
  simp [Vlan.rowId, column, Json.signed?, bounds]

theorem find?_switched : Dictionary.find? "id" (row.merge [("admin", .string (adminText up))]) =
    Dictionary.find? "id" row :=
  Dictionary.find?_insert_of_ne (show "id" ≠ "admin" by decide) _ _

/-- To switch VLANs leaves their numbers as they are. -/
theorem rowId_switchRows : (switchRows id up rows).map Vlan.rowId = rows.map Vlan.rowId := by
  rw [switchRows, Memory.changed, List.map_map, Memory.comp_ite fun row => ?_]
  rw [Vlan.rowId, find?_switched, Vlan.rowId]

theorem create (sound : Sound memory) (low : 1 ≤ id) (high : id ≤ 4095)
    (new : id ∉ (ofMemory memory).vlans.map Prod.fst) :
    Sound (Memory.transact [.insert vlanTable (Vlan.newRow id)] memory).2 := by
  rw [ids_ofMemory] at new
  refine sound.ofVlans rfl (fun _ _ same => by cases same; exact sorted_newRow)
    sound.revised_create ?_ ?_ ?_
  · refine List.forall_mem_append.mpr ⟨sound.numbered, List.forall_mem_singleton.mpr ?_⟩
    obtain ⟨number, rfl⟩ := Int.eq_ofNat_of_zero_le (Int.le_trans (by decide) low)
    exact ⟨number, rfl, by omega, by omega⟩
  · rw [List.map_append, List.map_singleton, rowId_newRow low high]
    exact List.nodup_append.mpr ⟨sound.different, List.nodup_singleton _,
      fun other listed number same => by
        rw [List.mem_singleton.mp same]
        exact fun equal => new (equal ▸ listed)⟩
  · rw [List.map_append]
    exact List.mem_append_left _ sound.first

theorem switch (sound : Sound memory) :
    Sound (Memory.transact [.update vlanTable [Vlan.identified id]
      [("admin", .string (adminText up))]] memory).2 := by
  refine sound.ofVlans rfl (fun _ _ same => by cases same) sound.revised_switch ?_ ?_ ?_
  · intro row member
    obtain ⟨before, inside, rfl⟩ := List.mem_map.mp member
    obtain ⟨number, column, bounds⟩ := sound.numbered before inside
    refine ⟨number, ?_, bounds⟩
    split
    · rw [find?_switched, column]
    · exact column
  · rw [rowId_switchRows]
    exact sound.different
  · rw [rowId_switchRows]
    exact sound.first

theorem effect_create (sound : Sound memory) :
    Request.effect memory (.create id) =
      if id ∈ (ofMemory memory).vlans.map Prod.fst then memory
      else (Memory.transact [.insert vlanTable (Vlan.newRow id)] memory).2 := by
  rw [Request.effect, plan_create, Memory.find?_of_rows sound.vlans, Option.bind_some,
    sound.any_identified]
  split <;> simp_all [carry]

theorem effect (sound : Sound memory) (valid : request.Valid) :
    Sound (Request.effect memory request) := by
  -- Where an entry is written that is no setting, nothing need be admitted.
  have ofEntry : ∀ {entry : Entry}, request.target? = some (.entry entry) →
      (∀ key, entry ≠ settingAt key) → Sound (Request.effect memory request) := by
    intro entry about other
    unfold Request.effect
    cases planned : request.plan memory with
    | none => exact sound
    | some operation =>
        obtain ⟨results, written⟩ := exists_writes planned
        obtain ⟨value?, rfl⟩ := writtenBy_of_writes written about
        exact sound.put (unnamed_of_target about) fun key _ same => absurd same (other key)
  cases request with
  | setting key value? =>
      refine sound.put (@unnamed_of_target (setting key value?) _ rfl) fun other value same bound => ?_
      cases same
      exact valid value bound
  | clear counter => exact ofEntry rfl fun key => by simp [counterAt, settingAt]
  | direct name arguments => exact ofEntry rfl fun key => by simp [directionAt, settingAt]
  | administer name up => exact ofEntry rfl fun key => by simp [stateAt, settingAt]
  | create id =>
      rw [sound.effect_create]
      split
      · exact sound
      · rename_i new
        exact sound.create valid.1 valid.2 new
  | switch id up => exact sound.switch

end Sound

namespace Configuration

theorem parse_text (direction : Lldp.Direction) :
    Lldp.Direction.parse (some direction.text) = direction := by
  obtain ⟨receive, transmit⟩ := direction
  cases receive <;> cases transmit <;> rfl

variable {config : Configuration}

end Configuration

namespace Sound

variable {results : List OperationResult}

theorem answer_insert (sound : Sound memory) (row : Row) :
    ∃ results, (Memory.transact [.insert vlanTable row] memory).1 = .ok results := by
  rw [Memory.transact_one]
  simp [Operation.table, Memory.find?_of_rows sound.vlans, Memory.executeOn]

theorem answer_update (sound : Sound memory) (values : Row) :
    (Memory.transact [.update vlanTable [Vlan.identified id] values] memory).1 =
      .ok [{ count := some ((memory.rows vlanTable).countP (Memory.meets [Vlan.identified id])) }] := by
  have changed := @Memory.changeRows_eq (memory.rows vlanTable) [Vlan.identified id] _
    (fun row => row.merge values) (List.forall_mem_singleton.mpr rfl) fun _ _ => rfl
  rw [Memory.transact_one]
  simp only [Operation.table, Memory.find?_of_rows sound.vlans, Memory.executeOn, changed]
  rfl

theorem exists_of_isOk {answer : Answer} (accepted : answer.isOk = true) :
    ∃ results, answer = .ok results := by
  cases answer with
  | error fault => contradiction
  | ok results => exact ⟨results, rfl⟩

theorem isSome_table (sound : Sound memory) (entry : Entry) :
    (Dictionary.find? entry.table memory.tables).isSome = true := by
  cases entry with
  | system _ _ => exact Option.isSome_iff_exists.mpr ⟨_, Memory.find?_of_rows sound.system⟩
  | interface _ _ _ =>
      exact Option.isSome_iff_exists.mpr ⟨_, Memory.find?_of_rows sound.interfaces⟩

theorem answer_of_writes (sound : Sound memory) (known : request.Known (ofMemory memory))
    (written : request.writes results = some operation) :
    ∃ results, (Memory.transact [operation] memory).1 = .ok results ∧
      request.outcome results = .ok () := by
  rcases writes_eq written with ⟨target, about, made⟩ | ⟨id, up, rfl, rfl⟩
  · have answered : ∃ results, (Memory.transact [operation] memory).1 = .ok results := by
      cases target with
      | entry entry =>
          obtain ⟨value?, rfl⟩ := made
          exact exists_of_isOk (Entry.isOk_put.trans (sound.isSome_table entry))
      | vlan id =>
          cases made
          exact sound.answer_insert _
    obtain ⟨results, answered⟩ := answered
    exact ⟨results, answered, by cases request <;> first | rfl | cases about⟩
  · refine ⟨_, sound.answer_update _, ?_⟩
    have present := sound.any_identified id
    rw [decide_eq_true (p := id ∈ (ofMemory memory).vlans.map Prod.fst) known] at present
    have counted := List.countP_pos_iff.mpr (List.any_eq_true.mp present)
    exact if_neg (Nat.ne_of_gt counted)

theorem answer_ask (sound : Sound memory) :
    ∃ results, Query.answer Memory.transact request.ask memory = (.ok results, memory) := by
  unfold ask
  cases asked : request.question? with
  | none => exact ⟨[], rfl⟩
  | some question =>
      have kept : (Memory.transact [question] memory).2 = memory :=
        Memory.transact_isRead sound.sorted.tables
          (List.forall_mem_singleton.mpr (isRead_question asked))
      have answered : ∃ results, (Memory.transact [question] memory).1 = .ok results := by
        cases request with
        | setting _ _ | administer _ _ | switch _ _ => contradiction
        | clear counter =>
            cases asked
            exact exists_of_isOk (Entry.isOk_ask.trans (sound.isSome_table _))
        | direct name arguments =>
            cases asked
            exact exists_of_isOk (Entry.isOk_ask.trans (sound.isSome_table _))
        | create id =>
            cases asked
            have filtered := @Memory.filterM_holdsAll (memory.rows vlanTable)
              [Vlan.identified id] (List.forall_mem_singleton.mpr rfl)
            rw [Memory.transact_one]
            simp only [Operation.table, Memory.find?_of_rows sound.vlans, Memory.executeOn, filtered]
            exact ⟨_, rfl⟩
      obtain ⟨results, answered⟩ := answered
      exact ⟨results, Prod.ext answered kept⟩

/-- The request has its effect, and no transaction of it is refused.  Only to raise a
counter may fail of its own. -/
theorem answer_query (sound : Sound memory) (known : request.Known (ofMemory memory))
    (others : ∀ counter, request ≠ clear counter) :
    Query.answer Memory.transact request.query memory = (.ok (), Request.effect memory request) := by
  refine Prod.ext ?_ (snd_answer_query sound.sorted)
  obtain ⟨results, asked⟩ := sound.answer_ask
  rw [query, Query.answer_bind, asked]
  simp only [finish]
  cases written : request.writes results with
  | none =>
      change request.unwritten results = _
      cases fails : request.unwritten results with
      | ok value => rfl
      | error fault =>
          obtain ⟨⟨counter, same⟩, _⟩ := clear_of_unwritten fails
          exact absurd same (others counter)
  | some operation =>
      obtain ⟨results', answered, fine⟩ := sound.answer_of_writes known written
      rw [Query.answer_bind, Query.answer_transact, ← Prod.eta (Memory.transact _ memory), answered]
      exact fine

end Sound

end SwitchShell.Feature
