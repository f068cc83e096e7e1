import SwitchShell.Proofs.Feature.Request

namespace SwitchShell.Feature.Request

variable {request other : Request} {memory : Memory} {results : List OperationResult}
  {operation : Operation} {entry : Entry}

/-- What the request would write if it asked now. -/
def plan (request : Request) (memory : Memory) : Option Operation :=
  match request.question? with
  | none => request.writes []
  | some question =>
      match (Memory.transact [question] memory).1 with
      | .ok results => request.writes results
      | .error _ => none

/-- The database after a transaction, if there is one. -/
def carry (memory : Memory) : Option Operation → Memory
  | none => memory
  | some operation => (Memory.transact [operation] memory).2

/-- The database after the request, if nobody comes in between. -/
def effect (memory : Memory) (request : Request) : Memory :=
  carry memory (request.plan memory)

/-- What a request is about. -/
inductive Target where
  | entry (entry : Entry)
  | vlan (id : Int)
deriving DecidableEq

/-- What the request may write; to switch a VLAN on or off is not about the VLAN
being there. -/
def target? : Request → Option Target
  | setting key _ => some (.entry (settingAt key))
  | clear counter => some (.entry (counterAt counter))
  | direct name _ => some (.entry (directionAt name))
  | administer name _ => some (.entry (stateAt name))
  | create id => some (.vlan id)
  | switch _ _ => none

/-- The operation writes that target. -/
def Target.WrittenBy : Target → Operation → Prop
  | .entry entry, operation => ∃ value?, operation = entry.put value?
  | .vlan id, operation => operation = .insert vlanTable (Vlan.newRow id)

/-- The request is about the system row. -/
def isGlobal : Request → Bool
  | setting _ _ | clear _ => true
  | _ => false

theorem isRead_question (asked : request.question? = some operation) :
    operation.isRead = true := by
  cases request <;> cases asked <;> rfl

/-- What a request writes is its target, or a VLAN is switched. -/
theorem writes_eq (written : request.writes results = some operation) :
    (∃ target, request.target? = some target ∧ target.WrittenBy operation) ∨
      ∃ id up, request = switch id up ∧ operation = .update vlanTable [Vlan.identified id]
        [("admin", .string (adminText up))] := by
  cases request with
  | setting key value? => cases written; exact .inl ⟨_, rfl, _, rfl⟩
  | clear counter =>
      obtain ⟨next, _, rfl⟩ := Option.map_eq_some_iff.mp written
      exact .inl ⟨_, rfl, _, rfl⟩
  | direct name arguments =>
      simp only [writes] at written
      split at written
      · cases written
        exact .inl ⟨_, rfl, _, rfl⟩
      · contradiction
  | administer name up => cases written; exact .inl ⟨_, rfl, _, rfl⟩
  | create id =>
      simp only [writes] at written
      split at written
      · cases written
        exact .inl ⟨_, rfl, rfl⟩
      · contradiction
  | switch id up => cases written; exact .inr ⟨_, _, rfl, rfl⟩

theorem writtenBy_of_writes {target : Target} (written : request.writes results = some operation)
    (about : request.target? = some target) : target.WrittenBy operation := by
  rcases writes_eq written with ⟨target', about', made⟩ | ⟨id, up, rfl, _⟩
  · cases about.symm.trans about'
    exact made
  · contradiction

theorem exists_writes (planned : request.plan memory = some operation) :
    ∃ results, request.writes results = some operation := by
  unfold plan at planned
  split at planned
  · exact ⟨[], planned⟩
  · split at planned
    · exact ⟨_, planned⟩
    · contradiction

theorem snd_answer_finish :
    (Query.answer Memory.transact (request.finish results) memory).2 =
      carry memory (request.writes results) := by
  unfold finish
  cases request.writes results with
  | none => rfl
  | some operation =>
      simp only [Query.answer_bind, Query.answer_transact, carry]
      cases answered : Memory.transact [operation] memory with
      | mk answer later => cases answer <;> rfl

/-- The request has the effect it has at once, if nobody comes in between. -/
theorem snd_answer_query (sorted : memory.Sorted) :
    (Query.answer Memory.transact request.query memory).2 = effect memory request := by
  unfold query ask effect plan
  rw [Query.answer_bind]
  cases asked : request.question? with
  | none => exact snd_answer_finish
  | some question =>
      have kept : (Memory.transact [question] memory).2 = memory :=
        Memory.transact_isRead sorted.tables
          (List.forall_mem_singleton.mpr (isRead_question asked))
      simp only [Query.answer_transact]
      cases answered : Memory.transact [question] memory with
      | mk answer later =>
          rw [answered] at kept
          cases kept
          cases answer with
          | ok results => exact snd_answer_finish
          | error fault => rfl

theorem plan_congr {memory memory' : Memory}
    (same : ∀ question, request.question? = some question →
      Dictionary.find? question.table memory.tables =
        Dictionary.find? question.table memory'.tables) :
    request.plan memory = request.plan memory' := by
  unfold plan
  cases asked : request.question? with
  | none => rfl
  | some question =>
      obtain ⟨table, conditions, columns, rfl⟩ : ∃ table conditions columns,
          question = .select table conditions columns := by
        cases request <;> cases asked <;> exact ⟨_, _, _, rfl⟩
      have answered := @Memory.select_congr _ _ table conditions columns (same _ asked)
      simp only [answered]

/-- What follows from an entry depends on nothing but the entry. -/
theorem plan_eq_of_read {memory memory' : Memory} (asks : request.question? = some entry.ask)
    (view : ∀ results results',
      Dictionary.find? entry.key (Entry.mapOf entry.column results) =
        Dictionary.find? entry.key (Entry.mapOf entry.column results') →
      request.writes results = request.writes results')
    (present : (Dictionary.find? entry.table memory.tables).isSome =
      (Dictionary.find? entry.table memory'.tables).isSome)
    (read : entry.read memory = entry.read memory') :
    request.plan memory = request.plan memory' := by
  unfold plan
  simp only [asks]
  have either := (@Entry.isOk_ask entry memory).trans (present.trans Entry.isOk_ask.symm)
  cases answered : (Memory.transact [entry.ask] memory).1 with
  | error fault =>
      cases answered' : (Memory.transact [entry.ask] memory').1 with
      | error fault' => rfl
      | ok results' =>
          rw [answered, answered'] at either
          contradiction
  | ok results =>
      cases answered' : (Memory.transact [entry.ask] memory').1 with
      | error fault' =>
          rw [answered, answered'] at either
          contradiction
      | ok results' =>
          refine view results results' ?_
          rw [Entry.read_of_ask answered, Entry.read_of_ask answered', read]

theorem plan_create {id : Int} :
    (create id).plan memory = (Dictionary.find? vlanTable memory.tables).bind fun rows =>
      if rows.any (Memory.meets [Vlan.identified id]) then none
      else some (.insert vlanTable (Vlan.newRow id)) := by
  unfold plan
  simp only [question?, Memory.transact_one, Operation.table]
  cases Dictionary.find? vlanTable memory.tables with
  | none => rfl
  | some rows =>
      have filtered := @Memory.filterM_holdsAll rows [Vlan.identified id]
        (List.forall_mem_singleton.mpr rfl)
      simp only [Memory.executeOn, filtered]
      have missing : ((rows.filter (Memory.meets [Vlan.identified id])).map fun row =>
          Memory.project row (some ["id"])).isEmpty =
            !rows.any (Memory.meets [Vlan.identified id]) := by
        rw [Bool.eq_iff_iff]
        simp
      change (if ((rows.filter (Memory.meets [Vlan.identified id])).map fun row =>
          Memory.project row (some ["id"])).isEmpty then _ else none) = _
      rw [missing, Option.bind_some]
      cases rows.any (Memory.meets [Vlan.identified id]) <;> rfl

theorem revised_create {id : Int} :
    Memory.revised memory (.insert vlanTable (Vlan.newRow id)) =
      (Dictionary.find? vlanTable memory.tables).map fun rows =>
        rows ++ [Dictionary.insert "_uuid" (Memory.rowIdentifier memory.serial) (Vlan.newRow id)] := by
  simp only [Memory.revised, Operation.table]
  cases Dictionary.find? vlanTable memory.tables <;> rfl

/-- The rows of a table after VLANs of a number were switched. -/
def switchRows (id : Int) (up : Bool) : List Row → List Row :=
  Memory.changed [Vlan.identified id] fun row => row.merge [("admin", .string (adminText up))]

theorem revised_switch {id : Int} {up : Bool} :
    Memory.revised memory
        (.update vlanTable [Vlan.identified id] [("admin", .string (adminText up))]) =
      (Dictionary.find? vlanTable memory.tables).map (switchRows id up) := by
  unfold Memory.revised
  cases found : Dictionary.find? vlanTable memory.tables with
  | none => simp [Operation.table, found]
  | some rows =>
      have changed := @Memory.changeRows_eq rows [Vlan.identified id] _
        (fun row => row.merge [("admin", .string (adminText up))])
        (List.forall_mem_singleton.mpr rfl) fun _ _ => rfl
      simp only [Operation.table, found, Option.bind_some, Memory.executeOn, changed]
      rfl

theorem meets_newRow {id id' : Int} {uuid : Json} (different : id ≠ id') :
    Memory.meets [Vlan.identified id'] (Dictionary.insert "_uuid" uuid (Vlan.newRow id)) = false := by
  have column : Dictionary.find? "id" (Dictionary.insert "_uuid" uuid (Vlan.newRow id)) =
      some (.integer id) := rfl
  simp only [Memory.meets, List.all_cons, List.all_nil, Vlan.identified, Condition.equals, column,
    Option.getD_some, Bool.and_true]
  change (id == id') = false
  exact beq_false_of_ne different

theorem meets_switched {id' : Int} {up : Bool} {row : Row} :
    Memory.meets [Vlan.identified id'] (row.merge [("admin", .string (adminText up))]) =
      Memory.meets [Vlan.identified id'] row := by
  have apart : "id" ≠ "admin" := by decide
  have column : Dictionary.find? "id" (row.merge [("admin", .string (adminText up))]) =
      Dictionary.find? "id" row := Dictionary.find?_insert_of_ne apart _ _
  simp only [Memory.meets, List.all_cons, List.all_nil, Vlan.identified, Condition.equals, column]

/-- A VLAN stays wanted, or unwanted, under changes that leave its rows there. -/
theorem plan_create_transact {id : Int} {change : List Row → List Row}
    (table : operation.table = vlanTable)
    (revised : Memory.revised memory operation =
      (Dictionary.find? vlanTable memory.tables).map change)
    (same : ∀ rows, (change rows).any (Memory.meets [Vlan.identified id]) =
      rows.any (Memory.meets [Vlan.identified id])) :
    (create id).plan (Memory.transact [operation] memory).2 = (create id).plan memory := by
  simp only [plan_create, Memory.snd_transact_one, revised, table]
  cases found : Dictionary.find? vlanTable memory.tables with
  | none => simp only [Option.map_none, found]
  | some rows =>
      simp only [Option.map_some, Dictionary.find?_insert_self, Option.bind_some, same]

/-- To make a VLAN or to switch one changes what a request would write only if it
is to make the same one. -/
theorem plan_vlan (table : operation.table = vlanTable)
    (kept : ∀ id, request = create id →
      (create id).plan (Memory.transact [operation] memory).2 = (create id).plan memory) :
    request.plan (Memory.transact [operation] memory).2 = request.plan memory := by
  have elsewhere : ∀ own : Entry, own.ask.table ≠ operation.table := by
    intro own
    rw [table]
    cases own <;> simp [Operation.table, Entry.ask, Entry.table, vlanTable, systemTable,
      interfaceTable]
  cases request with
  | setting _ _ | administer _ _ | switch _ _ => rfl
  | clear counter =>
      refine plan_congr fun question asks => ?_
      cases asks
      exact Memory.find?_transact_of_ne (elsewhere _)
  | direct name arguments =>
      refine plan_congr fun question asks => ?_
      cases asks
      exact Memory.find?_transact_of_ne (elsewhere _)
  | create id => exact kept id rfl

theorem unnamed_of_target (about : request.target? = some (.entry entry)) :
    entry.column ≠ "name" := by
  cases request <;> cases about <;> simp [settingAt, counterAt, directionAt, stateAt, Entry.column]

theorem plan_put {value? : Option String} (unnamed : entry.column ≠ "name")
    (apart : request.target? ≠ some (.entry entry)) :
    request.plan (Memory.transact [entry.put value?] memory).2 = request.plan memory := by
  have ofRead : ∀ own : Entry, request.target? = some (.entry own) →
      request.question? = some own.ask →
      (∀ results results',
        Dictionary.find? own.key (Entry.mapOf own.column results) =
          Dictionary.find? own.key (Entry.mapOf own.column results') →
        request.writes results = request.writes results') →
      request.plan (Memory.transact [entry.put value?] memory).2 = request.plan memory := by
    intro own about asks view
    have different : own ≠ entry := fun same => apart (same ▸ about)
    exact plan_eq_of_read asks view Memory.isSome_find?_transact
      (Entry.read_put different unnamed)
  cases request with
  | setting _ _ | administer _ _ | switch _ _ => rfl
  | clear counter =>
      refine ofRead (counterAt counter) rfl rfl fun results results' same => ?_
      simp only [counterAt, Entry.key, Entry.column] at same
      simp only [writes, nextOf, same]
  | direct name arguments =>
      refine ofRead (directionAt name) rfl rfl fun results results' same => ?_
      simp only [directionAt, Entry.key, Entry.column] at same
      simp only [writes, same]
  | create id =>
      refine plan_congr fun question asks => ?_
      cases asks
      refine Memory.find?_transact_of_ne ?_
      cases entry <;> simp [Operation.table, Entry.put, Entry.table, vlanTable, systemTable,
        interfaceTable]

theorem plan_effect
    (apart : ∀ target, request.target? = some target → other.target? ≠ some target) :
    request.plan (effect memory other) = request.plan memory := by
  unfold effect
  cases planned : other.plan memory with
  | none => rfl
  | some operation =>
      obtain ⟨results, written⟩ := exists_writes planned
      rcases writes_eq written with ⟨target, about, made⟩ | ⟨id, up, rfl, rfl⟩
      · cases target with
        | entry entry =>
            obtain ⟨value?, rfl⟩ := made
            exact plan_put (unnamed_of_target about) fun own => apart _ own about
        | vlan id =>
            cases made
            refine plan_vlan rfl fun id' same => ?_
            have different : id ≠ id' := by
              rintro rfl
              exact apart _ (same ▸ rfl) about
            refine plan_create_transact rfl revised_create fun rows => ?_
            rw [List.any_append, List.any_cons, List.any_nil, meets_newRow different]
            simp
      · refine plan_vlan rfl fun id' _ => plan_create_transact rfl revised_switch fun rows => ?_
        rw [switchRows, Memory.changed, List.any_map, Memory.comp_ite fun _ => meets_switched]

theorem sorted_newRow {id : Int} : Dictionary.Sorted (Vlan.newRow id) := by
  have columns : (Vlan.newRow id).map Prod.fst = ["admin", "id", "name"] := rfl
  refine List.pairwise_map.mp ?_
  rw [columns]
  decide

theorem insertsSorted_of_writes (written : request.writes results = some operation) :
    Memory.InsertsSorted operation := by
  rintro table row rfl
  rcases writes_eq written with ⟨target, about, made⟩ | ⟨id, up, rfl, impossible⟩
  · cases target with
    | entry entry =>
        obtain ⟨value?, impossible⟩ := made
        cases impossible
    | vlan id =>
        cases made
        exact sorted_newRow
  · cases impossible

theorem sorted_effect (sorted : memory.Sorted) : (effect memory request).Sorted := by
  unfold effect
  cases planned : request.plan memory with
  | none => exact sorted
  | some operation =>
      obtain ⟨results, written⟩ := exists_writes planned
      exact sorted.transact (List.forall_mem_singleton.mpr (insertsSorted_of_writes written))

theorem writes_of_isGlobal (global : request.isGlobal = true)
    (written : request.writes results = some operation) :
    ∃ column key value?, request.target? = some (.entry (.system column key)) ∧
      operation = (Entry.system column key).put value? := by
  cases request with
  | setting key value? => cases written; exact ⟨_, _, _, rfl, rfl⟩
  | clear counter =>
      obtain ⟨next, _, rfl⟩ := Option.map_eq_some_iff.mp written
      exact ⟨_, _, _, rfl, rfl⟩
  | direct _ _ | administer _ _ | create _ | switch _ _ => contradiction

theorem transact_comm_of_writes {results' : List OperationResult} {operation' : Operation}
    (sorted : memory.Sorted) (global : request.isGlobal = true)
    (apart : request.target? ≠ other.target?)
    (written : request.writes results = some operation)
    (written' : other.writes results' = some operation') :
    (Memory.transact [operation] (Memory.transact [operation'] memory).2).2 =
      (Memory.transact [operation'] (Memory.transact [operation] memory).2).2 := by
  obtain ⟨column, key, value?, about, rfl⟩ := writes_of_isGlobal global written
  have elsewhere (table : operation'.table = vlanTable) :
      (Memory.transact [(Entry.system column key).put value?]
        (Memory.transact [operation'] memory).2).2 =
      (Memory.transact [operation']
        (Memory.transact [(Entry.system column key).put value?] memory).2).2 := by
    refine Memory.transact_comm sorted.tables ?_ fun _ _ same => by cases same
    rw [table]
    simp [Operation.table, Entry.put, Entry.table, systemTable, vlanTable]
  rcases writes_eq written' with ⟨target, about', made⟩ | ⟨id, up, rfl, rfl⟩
  · cases target with
    | entry entry =>
        obtain ⟨value?', rfl⟩ := made
        have different : Entry.system column key ≠ entry := fun same =>
          apart (about.trans (same ▸ about'.symm))
        exact Entry.put_comm sorted different (unnamed_of_target about) (unnamed_of_target about')
    | vlan id =>
        cases made
        exact elsewhere rfl
  · exact elsewhere rfl

theorem effect_comm (sorted : memory.Sorted) (global : request.isGlobal = true)
    (apart : request.target? ≠ other.target?) :
    effect (effect memory other) request = effect (effect memory request) other := by
  -- Each of them writes what it would have written before the other one.
  have kept : request.plan (effect memory other) = request.plan memory :=
    plan_effect fun target own others => apart (own.trans others.symm)
  have kept' : other.plan (effect memory request) = other.plan memory :=
    plan_effect fun target own others => apart (others.trans own.symm)
  change carry (effect memory other) (request.plan (effect memory other)) =
    carry (effect memory request) (other.plan (effect memory request))
  rw [kept, kept']
  unfold effect
  cases planned : request.plan memory with
  | none => rfl
  | some operation =>
      cases planned' : other.plan memory with
      | none => rfl
      | some operation' =>
          obtain ⟨results, written⟩ := exists_writes planned
          obtain ⟨results', written'⟩ := exists_writes planned'
          exact transact_comm_of_writes sorted global apart written written'

/-- Requests of one command: global ones, of which all but the last are settings, or
at most one. -/
def Batch (requests : List Request) : Prop :=
  ((∀ request ∈ requests, request.isGlobal = true) ∧
    ∀ request ∈ requests.dropLast, request.isSetting = true) ∨ requests.length ≤ 1

theorem fst_answer_of_isSetting (setting : request.isSetting = true)
    (present : (Dictionary.find? systemTable memory.tables).isSome = true) :
    (Query.answer Memory.transact request.query memory).1 = .ok () := by
  cases request with
  | setting key value? =>
      have accepted : (Memory.transact [(settingAt key).put value?] memory).1.isOk = true :=
        Entry.isOk_put.trans present
      simp only [query, ask, question?, finish, writes, pure_bind, Query.answer_bind,
        Query.answer_transact]
      rcases answered : Memory.transact [(settingAt key).put value?] memory with ⟨_ | results, later⟩
      · rw [answered] at accepted
        contradiction
      · rfl
  | clear _ | direct _ _ | administer _ _ | create _ | switch _ _ => contradiction

theorem effect_of_missing (global : request.isGlobal = true)
    (missing : Dictionary.find? systemTable memory.tables = none) :
    effect memory request = memory := by
  unfold effect
  cases planned : request.plan memory with
  | none => rfl
  | some operation =>
      obtain ⟨results, written⟩ := exists_writes planned
      obtain ⟨column, key, value?, _, rfl⟩ := writes_of_isGlobal global written
      have refused : Memory.revised memory ((Entry.system column key).put value?) = none := by
        simp [Memory.revised, Operation.table, Entry.put, Entry.table, missing]
      rw [carry, Memory.snd_transact_one, refused]

theorem foldl_effect_of_missing {requests : List Request}
    (global : ∀ request ∈ requests, request.isGlobal = true)
    (missing : Dictionary.find? systemTable memory.tables = none) :
    requests.foldl effect memory = memory := by
  induction requests with
  | nil => rfl
  | cons request requests ih =>
      rw [List.foldl_cons, effect_of_missing (global request List.mem_cons_self) missing]
      exact ih fun other member => global other (List.mem_cons_of_mem _ member)

theorem missing_of_failed_setting {fault : Fault} {later : Memory}
    (setting : request.isSetting = true)
    (failed : Query.answer Memory.transact request.query memory = (.error fault, later)) :
    Dictionary.find? systemTable memory.tables = none := by
  rw [← Option.not_isSome_iff_eq_none]
  intro present
  have accepted := fst_answer_of_isSetting setting present
  rw [failed] at accepted
  contradiction

theorem snd_answer_inTurn_of_isGlobal {requests : List Request} (sorted : memory.Sorted)
    (global : ∀ request ∈ requests, request.isGlobal = true)
    (settings : ∀ request ∈ requests.dropLast, request.isSetting = true) :
    (Query.answer Memory.transact (inTurn requests) memory).2 = requests.foldl effect memory := by
  -- on the requests; the last one may fail, and those before it fail only together
  induction requests generalizing memory with
  | nil => rfl
  | cons request requests ih =>
      cases requests with
      | nil =>
          rw [inTurn_singleton]
          exact snd_answer_query sorted
      | cons next requests =>
          obtain ⟨first, others⟩ := List.forall_mem_cons.mp global
          obtain ⟨setting, settings⟩ := List.forall_mem_cons.mp settings
          have after := @snd_answer_query request memory sorted
          rw [inTurn, Query.answer_bind, List.foldl_cons]
          rcases answered : Query.answer Memory.transact request.query memory with
            ⟨fault | done, later⟩ <;> rw [answered] at after
          · -- Only where there is no system table a setting fails, and then all requests do.
            have missing := missing_of_failed_setting setting answered
            obtain rfl : later = effect memory request := after
            change effect memory request = (next :: requests).foldl effect (effect memory request)
            rw [effect_of_missing first missing, foldl_effect_of_missing others missing]
          · obtain rfl : later = effect memory request := after
            exact ih (sorted_effect sorted) others settings

theorem snd_answer_inTurn {requests : List Request} (sorted : memory.Sorted) (batch : Batch requests) :
    (Query.answer Memory.transact (inTurn requests) memory).2 = requests.foldl effect memory := by
  rcases batch with ⟨global, settings⟩ | single
  · exact snd_answer_inTurn_of_isGlobal sorted global settings
  · cases requests with
    | nil => rfl
    | cons request others =>
        obtain rfl : others = [] :=
          List.eq_nil_of_length_eq_zero (Nat.le_zero.mp (Nat.le_of_succ_le_succ single))
        rw [inTurn_singleton]
        exact snd_answer_query sorted

theorem isGlobal_of_mem_requests {arguments : Arguments} :
    ∀ request ∈ Lldp.requests arguments, request.isGlobal = true := by
  intro request member
  simp only [Lldp.requests, List.mem_append, Option.mem_toList,
    Option.map_eq_some_iff] at member
  rcases member with member | ⟨_, _, rfl⟩ | ⟨_, _, rfl⟩ | ⟨_, _, rfl⟩ | ⟨_, _, rfl⟩
  · split at member
    · rw [List.mem_singleton.mp member]
      rfl
    · contradiction
  · rfl
  · rfl
  · rfl
  · rfl

theorem mem_of_mem_dropLast {requests : List Request} {last? : Option Request}
    (member : request ∈ (requests ++ last?.toList).dropLast) : request ∈ requests := by
  cases last? with
  | none => exact List.dropLast_subset _ (by simpa using member)
  | some last => simpa using member

theorem batch_requests {arguments : Arguments} : Batch (Lldp.requests arguments) := by
  refine .inl ⟨isGlobal_of_mem_requests, fun request member => ?_⟩
  simp only [Lldp.requests, ← List.append_assoc] at member
  have setting := mem_of_mem_dropLast member
  simp only [List.mem_append, Option.mem_toList, Option.map_eq_some_iff] at setting
  rcases setting with ((setting | ⟨_, _, rfl⟩) | ⟨_, _, rfl⟩) | ⟨_, _, rfl⟩
  · split at setting
    · rw [List.mem_singleton.mp setting]
      rfl
    · contradiction
  · rfl
  · rfl
  · rfl

end SwitchShell.Feature.Request
