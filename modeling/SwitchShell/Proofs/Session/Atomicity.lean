import SwitchShell.Proofs.Feature.Effect
import SwitchShell.Proofs.Session.Requests

namespace SwitchShell

namespace Feature.Request

variable {request : Request} {requests : List Request} {exchanges : List Exchange}
  {results : List OperationResult} {outage : Nat → Bool} {fault failure : Fault}
  {before after : Journal Memory} {memory : Memory}

/-- To switch a VLAN that is not there leaves the tables as they are. -/
theorem tables_of_switch_nothing {id : Int} {up : Bool} (sorted : memory.tables.Sorted)
    (answered : (Memory.transact [.update vlanTable [Vlan.identified id]
      [("admin", .string (adminText up))]] memory).1 = .ok results)
    (nothing : Query.countOf results = 0) :
    (Memory.transact [.update vlanTable [Vlan.identified id]
      [("admin", .string (adminText up))]] memory).2.tables = memory.tables := by
  rw [Memory.snd_transact_one, revised_switch]
  rw [Memory.transact_one] at answered
  simp only [Operation.table] at answered ⊢
  cases found : Dictionary.find? vlanTable memory.tables with
  | none => rfl
  | some rows =>
      have changed := @Memory.changeRows_eq rows [Vlan.identified id] _
        (fun row => row.merge [("admin", .string (adminText up))])
        (List.forall_mem_singleton.mpr rfl) fun _ _ => rfl
      simp only [found, Memory.executeOn, changed] at answered
      cases answered
      have kept : switchRows id up rows = rows := Memory.changed_of_countP nothing
      simp only [Option.map_some, kept]
      exact sorted.insert_of_find? found

theorem answered_of_ok (yields : Program.Yields request.query.run exchanges (.ok ())) :
    ∀ exchange ∈ exchanges, exchange.Answered := by
  rcases Query.yields_bind_iff.mp yields with
    ⟨first, rest, results, rfl, asking, ending⟩ | ⟨_, _, impossible⟩
  · refine List.forall_mem_append.mpr ⟨?_, ?_⟩
    · rcases asked_of_yields asking with ⟨_, rfl, _⟩ | ⟨question, _, rfl⟩
      · exact List.forall_mem_nil _
      · exact List.forall_mem_singleton.mpr ⟨results, rfl⟩
    · rcases finished_of_yields ending with ⟨_, rfl, _⟩ | ⟨operation, answer, _, rfl, fine⟩
      · exact List.forall_mem_nil _
      · cases answer with
        | ok results' => exact List.forall_mem_singleton.mpr ⟨results', rfl⟩
        | error fault => contradiction
  · contradiction

theorem tables_of_question (sorted : before.state.tables.Sorted) {result : Answer}
    (yields : Program.Yields request.ask.run exchanges result)
    (plays : Plays (Journal.transact outage fault Memory.transact) before exchanges after) :
    after.state = before.state := by
  refine Journal.state_of_plays_isRead sorted plays ?_
  rcases asked_of_yields yields with ⟨_, rfl, _⟩ | ⟨question, asked, rfl⟩
  · exact List.forall_mem_nil _
  · exact List.forall_mem_singleton.mpr (List.forall_mem_singleton.mpr (isRead_question asked))

/-- A request that fails leaves the tables as they are. -/
theorem tables_of_failure (sorted : before.state.tables.Sorted)
    (yields : Program.Yields request.query.run exchanges (.error failure))
    (plays : Plays (Journal.transact outage fault Memory.transact) before exchanges after) :
    after.state.tables = before.state.tables := by
  rcases Query.yields_bind_iff.mp yields with
    ⟨first, rest, results, rfl, asking, ending⟩ | ⟨_, asking, _⟩
  · obtain ⟨middle, begun, ended⟩ := plays.split
    have kept := tables_of_question sorted asking begun
    rw [← kept] at sorted ⊢
    rcases finished_of_yields ending with ⟨_, rfl, _⟩ | ⟨operation, answer, written, rfl, fails⟩
    · cases ended
      rfl
    · have sent := plays_singleton_iff.mp ended
      simp only at sent
      cases answer with
      | error fault' =>
          have failed := @Journal.tables_of_fails outage fault fault' [operation] middle
          rw [sent] at failed
          exact failed rfl
      | ok results' =>
          obtain ⟨id, up, rfl, nothing⟩ := switch_of_outcome fails.symm
          cases written
          have reached := Journal.transact_ok (congrArg Prod.fst sent)
          rw [sent] at reached
          have same := tables_of_switch_nothing sorted (congrArg Prod.fst reached) nothing
          rwa [reached] at same
  · exact congrArg Memory.tables (tables_of_question sorted asking plays)

theorem answer_of_ok (yields : Program.Yields request.query.run exchanges (.ok ()))
    (plays : Plays (Journal.transact outage fault Memory.transact) before exchanges after) :
    Query.answer Memory.transact request.query before.state = (.ok (), after.state) :=
  Program.run_eq_of_plays yields (Journal.plays_of_answered plays (answered_of_ok yields))

theorem state_of_ok (sorted : before.state.Sorted)
    (yields : Program.Yields request.query.run exchanges (.ok ()))
    (plays : Plays (Journal.transact outage fault Memory.transact) before exchanges after) :
    after.state = effect before.state request := by
  rw [← snd_answer_query sorted, answer_of_ok yields plays]

/-- Requests fail where one of them does; those before it were made, and nothing
else was. -/
theorem made_of_failure (sorted : before.state.Sorted)
    (yields : Program.Yields (inTurn requests).run exchanges (.error failure))
    (plays : Plays (Journal.transact outage fault Memory.transact) before exchanges after) :
    ∃ made left later, requests = made ++ left ∧ left ≠ [] ∧
      Query.answer Memory.transact (inTurn made) before.state = (.ok (), later) ∧
      after.state.tables = later.tables := by
  induction requests generalizing before exchanges with
  | nil =>
      obtain ⟨_, impossible⟩ := Query.yields_pure_iff.mp yields
      contradiction
  | cons request requests ih =>
      rcases Query.yields_bind_iff.mp yields with
        ⟨first, rest, _, rfl, asked, onward⟩ | ⟨_, asked, _⟩
      · obtain ⟨middle, begun, ended⟩ := plays.split
        have answer := answer_of_ok asked begun
        have sorted' : middle.state.Sorted := state_of_ok sorted asked begun ▸ sorted_effect sorted
        obtain ⟨made, left, later, rfl, remain, done, tables⟩ := ih sorted' onward ended
        refine ⟨request :: made, left, later, rfl, remain, ?_, tables⟩
        rw [inTurn, Query.answer_bind, answer]
        exact done
      · exact ⟨[], request :: requests, before.state, rfl, List.cons_ne_nil _ _, rfl,
          tables_of_failure sorted.tables asked plays⟩

end Feature.Request

namespace Session

open Feature

variable {session : Session} {line : String} {outage : Nat → Bool} {fault : Fault}
  {before : Journal Memory}

/-- What the dispatch shows ends in an error. -/
def Failed (dispatch : Dispatch) : Prop :=
  ∃ message, dispatch.output.getLast? = some (.error message)

theorem failed_of_prepare {σ : Type} {backend : Backend σ} {state : σ}
    (prepared : session.prepare line = .done (.error (Dispatch.ofFault fault)))
    (told : fault.isFatal = false) :
    Failed (Program.run backend (session.dispatch line) state).1.1 := by
  rw [dispatch_eq_andThen, prepared, Dispatch.ofFault, Dispatch.failed_eq _ told]
  exact ⟨fault.message, rfl⟩

/-- The line was an `lldp` command of configuration mode that stopped on its way:
some of its requests were made in full, and none of the others had any effect. -/
def Stopped (session : Session) (line : String) (before after : Memory) : Prop :=
  ∃ arguments made left later,
    session.prepare line = .done (.ok { handler := Lldp.configure, arguments }) ∧
      Lldp.requests arguments = made ++ left ∧ made ≠ [] ∧ left ≠ [] ∧
      Query.answer Memory.transact (Request.inTurn made) before = (.ok (), later) ∧
      after.tables = later.tables

theorem fault_of_failed {result : Except Fault Unit} (failed : Failed (.ofResult result)) :
    ∃ fault, result = .error fault := by
  obtain ⟨message, last⟩ := failed
  cases result with
  | ok value => contradiction
  | error fault => exact ⟨fault, rfl⟩

/-- A line that fails leaves the tables as they are, or it is an `lldp` line that
stopped on its way.  Any transaction may fall into the outage. -/
theorem tables_of_failed {dispatch : Dispatch} {later : Session} {after : Journal Memory}
    (builtin : session.registry = Feature.builtin) (sorted : before.state.Sorted)
    (ran : Program.run (Journal.transact outage fault Memory.transact) (session.dispatch line)
      before = ((dispatch, later), after))
    (failed : Failed dispatch) :
    after.state.tables = before.state.tables ∨ session.Stopped line before.state after.state := by
  obtain ⟨exchanges, yields, plays⟩ := Program.exists_plays_run
    (Journal.transact outage fault Memory.transact) (session.dispatch line) before
  rw [ran] at yields plays
  cases asks_of_builtin builtin line with
  | reads only =>
      have kept := Journal.state_of_plays_isRead sorted.tables plays (only.isRead yields)
      exact .inl (congrArg Memory.tables kept)
  | one performs =>
      obtain ⟨result, asked, rfl⟩ := performs _ _ _ yields
      obtain ⟨fault, rfl⟩ := fault_of_failed failed
      rw [Request.inTurn_singleton] at asked
      exact .inl (Request.tables_of_failure sorted.tables asked plays)
  | lldp prepared performs =>
      obtain ⟨result, asked, rfl⟩ := performs _ _ _ yields
      obtain ⟨fault, rfl⟩ := fault_of_failed failed
      obtain ⟨made, left, later, parts, remain, done, tables⟩ :=
        Request.made_of_failure sorted asked plays
      cases made with
      | nil =>
          cases done
          exact .inl tables
      | cons request made =>
          exact .inr ⟨_, _, left, later, prepared, parts, List.cons_ne_nil _ _, remain, done, tables⟩

/-- A line that sets two things while the second transaction falls into an outage. -/
theorem lldp_line_stops :
    let session : Session :=
      { registry := Feature.builtin, contexts := [{ mode := configMode }], hostname := "switch" }
    let before : Journal Memory := { state := Memory.initial }
    let ran := Program.run
      (Journal.transact (· == 1) (.database .refused) Memory.transact)
      (session.dispatch "lldp enable holdtime 5") before
    before.state.Sorted ∧ Failed ran.1.1 ∧
      (ran.2.state.tables = before.state.tables ∨
        session.Stopped "lldp enable holdtime 5" before.state ran.2.state) := by
  intro session before ran
  have sorted : before.state.Sorted := Memory.sorted_withHostname "switch"
  have failed : Failed ran.1.1 := ⟨_, rfl⟩
  exact ⟨sorted, failed, tables_of_failed rfl sorted rfl failed⟩

/-- So a line that fails may leave the tables changed. -/
theorem failed_line_changes_tables :
    let session : Session :=
      { registry := Feature.builtin, contexts := [{ mode := configMode }], hostname := "switch" }
    let ran := Program.run
      (Journal.transact (· == 1) (.database .refused) Memory.transact)
      (session.dispatch "lldp enable holdtime 5") { state := Memory.initial }
    Failed ran.1.1 ∧ ran.2.state.tables ≠ Memory.initial.tables := by
  intro session ran
  refine ⟨⟨_, rfl⟩, fun same => ?_⟩
  have enabled : (Request.settingAt Lldp.enableKey).read ran.2.state = some "true" := rfl
  have unset : (Request.settingAt Lldp.enableKey).read Memory.initial = none := rfl
  unfold Entry.read Memory.rows at enabled unset
  rw [same, unset] at enabled
  contradiction

end Session

end SwitchShell
