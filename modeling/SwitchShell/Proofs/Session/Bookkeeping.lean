import SwitchShell.Proofs.Feature.Faults
import SwitchShell.Proofs.Feature.Upkeep
import SwitchShell.Proofs.Session.Atomicity
import SwitchShell.Proofs.Session.Configured
import SwitchShell.Proofs.Session.Failure
import SwitchShell.Proofs.Store.Trouble

namespace SwitchShell

/-! What contexts name is in the database, whatever lines a session has run and
whichever of its transactions have failed.

So the handlers of the modes of a VLAN and of an interface have no faults of
their own to show.
-/

variable {exchanges : List Exchange} {outage : Nat → Bool} {trouble : DatabaseTrouble}
  {before after : Journal Memory}

theorem Fault.Rejects.grounded {words : List String} {fault : Fault}
    (rejects : fault.Rejects words) : fault.Grounded := by
  refine grounded_of_ne_refused ?_
  cases rejects with
  | ofBlames blames => cases blames <;> simp
  | noSuchCommand | incompleteCommand | noHelpAvailable => simp

theorem Journal.grounded_of_plays
    (plays : Plays (transact outage (.database trouble) Memory.transact) before exchanges after) :
    ∀ exchange ∈ exchanges, FaultIn Fault.Grounded exchange.answer := by
  intro exchange member fault failed
  obtain ⟨trouble, rfl⟩ := faultIn_of_plays plays exchange member fault failed
  exact Fault.grounded_of_ne_refused (by simp)

theorem Query.answered_of_select {table : String} {conditions : List Condition}
    {columns : Option (List String)} {rows : List Row}
    (yields : Program.Yields (select table conditions columns).run exchanges (.ok rows)) :
    ∀ exchange ∈ exchanges, exchange.Answered := by
  rcases yields_bind_iff.mp yields with ⟨first, rest, results, rfl, sent, last⟩ | ⟨_, _, impossible⟩
  · obtain ⟨rfl, _⟩ := yields_pure_iff.mp last
    rw [List.append_nil, yields_transact_iff.mp sent]
    exact List.forall_mem_singleton.mpr ⟨results, rfl⟩
  · contradiction

namespace Feature.Request

open Feature.Configuration

variable {request : Request} {requests : List Request} {failure : Fault}

/-- Of requests in turn some are made in full, and the others have no effect. -/
theorem exists_made {result : Except Fault Unit} (sorted : before.state.Sorted)
    (yields : Program.Yields (inTurn requests).run exchanges result)
    (plays : Plays (Journal.transact outage failure Memory.transact) before exchanges after) :
    ∃ made : List Request, (∀ request ∈ made, request ∈ requests) ∧
      after.state.tables = (made.foldl effect before.state).tables := by
  induction requests generalizing before exchanges with
  | nil =>
      obtain ⟨rfl, _⟩ := Query.yields_pure_iff.mp yields
      cases plays
      exact ⟨[], List.forall_mem_nil _, rfl⟩
  | cons request requests ih =>
      rcases Query.yields_bind_iff.mp yields with
        ⟨first, rest, _, rfl, asked, onward⟩ | ⟨fault, asked, _⟩
      · obtain ⟨middle, begun, ended⟩ := plays.split
        have reached := state_of_ok sorted asked begun
        obtain ⟨made, among, tables⟩ := ih (reached ▸ sorted_effect sorted) onward ended
        rw [reached] at tables
        refine ⟨request :: made, ?_, tables⟩
        exact List.forall_mem_cons.mpr
          ⟨List.mem_cons_self, fun other member => List.mem_cons_of_mem _ (among other member)⟩
      · exact ⟨[], List.forall_mem_nil _, tables_of_failure sorted.tables asked plays⟩

/-- A request about what is there fails with nothing but a fault of the database. -/
theorem grounded_of_known (sound : Sound before.state)
    (known : request.Known (ofMemory before.state))
    (yields : Program.Yields request.query.run exchanges (.error failure))
    (plays : Plays (Journal.transact outage (.database trouble) Memory.transact) before exchanges
      after) : failure.Grounded := by
  have grounded := Journal.grounded_of_plays plays
  rcases Query.yields_bind_iff.mp yields with
    ⟨first, rest, results, rfl, asking, ending⟩ | ⟨fault, asking, same⟩
  · obtain ⟨middle, begun, ended⟩ := plays.split
    rcases finished_of_yields ending with
      ⟨_, _, fails⟩ | ⟨operation, answer, written, rfl, fails⟩
    · obtain ⟨_, rfl⟩ := clear_of_unwritten fails.symm
      exact Fault.grounded_of_ne_refused (by simp)
    · cases answer with
      | error fault =>
          cases fails
          exact grounded _ (List.mem_append_right _ (List.mem_singleton_self _)) _ rfl
      | ok answered =>
          -- An answer to what is written does not say that nothing was there.
          have kept := tables_of_question sound.sorted.tables asking begun
          rw [← kept] at sound known
          obtain ⟨results', same, fine⟩ := sound.answer_of_writes known written
          have sent := plays_singleton_iff.mp ended
          have reached := Journal.transact_ok (congrArg Prod.fst sent)
          cases same.symm.trans (congrArg Prod.fst reached)
          cases fails.trans fine
  · cases same
    rcases asked_of_yields asking with ⟨_, _, impossible⟩ | ⟨question, _, rfl⟩
    · contradiction
    · exact grounded _ List.mem_cons_self _ rfl

/-- So does an action that makes such a request and goes on. -/
theorem faultIn_of_known {workspace later : Workspace} {result : Except Fault Outcome}
    (sound : Sound before.state) (known : request.Known (ofMemory before.state))
    (ends : (Action.query request.query >>= fun _ => pure .proceed : Action Outcome).Ends workspace
      exchanges result later)
    (plays : Plays (Journal.transact outage (.database trouble) Memory.transact) before exchanges
      after) : FaultIn Fault.Grounded result := by
  rcases Action.ends_bind_iff.mp ends with
    ⟨first, rest, value, middle, rfl, asked, ended⟩ | ⟨fault, asked, rfl⟩
  · obtain ⟨_, rfl, _⟩ := Action.ends_pure_iff.mp ended
    exact faultIn_ok _
  · exact faultIn_error (grounded_of_known sound known (Action.ends_query_iff.mp asked).1 plays)

end Feature.Request

open Feature

/-- The context of a VLAN or of an interface names one that is there. -/
structure Context.Grounded (memory : Memory) (context : Context) : Prop where
  vlan : context.mode = vlanMode →
    ∃ id, context.object = some (.integer id) ∧ HasVlan memory id
  interface : context.mode = interfaceMode →
    ∃ name, context.object = some (.word name) ∧ HasPort memory name

namespace Session

variable {session : Session} {memory later : Memory} {id : Int} {name : String}

/-- Every context names something that is there. -/
def Grounded (memory : Memory) (contexts : ContextStack) : Prop :=
  ∀ context ∈ contexts, context.Grounded memory

theorem grounded_configStack : Grounded memory configStack := by
  refine List.forall_mem_singleton.mpr ⟨fun isVlan => ?_, fun isInterface => ?_⟩
  · exact absurd isVlan (show configMode ≠ vlanMode by decide)
  · exact absurd isInterface (show configMode ≠ interfaceMode by decide)

theorem grounded_vlanStack_iff : Grounded memory (vlanStack id) ↔ HasVlan memory id := by
  constructor
  · intro grounded
    obtain ⟨number, same, present⟩ := (grounded _ List.mem_cons_self).vlan rfl
    cases same
    exact present
  · intro present
    refine List.forall_mem_cons.mpr ⟨⟨fun _ => ⟨id, rfl, present⟩, fun isInterface => ?_⟩,
      grounded_configStack⟩
    exact absurd isInterface (show vlanMode ≠ interfaceMode by decide)

theorem grounded_interfaceStack_iff :
    Grounded memory (interfaceStack name) ↔ HasPort memory name := by
  constructor
  · intro grounded
    obtain ⟨other, same, present⟩ := (grounded _ List.mem_cons_self).interface rfl
    cases same
    exact present
  · intro present
    refine List.forall_mem_cons.mpr ⟨⟨fun isVlan => ?_, fun _ => ⟨name, rfl, present⟩⟩,
      grounded_configStack⟩
    exact absurd isVlan (show interfaceMode ≠ vlanMode by decide)

theorem Grounded.mono {contexts : ContextStack} (grounded : Grounded memory contexts)
    (vlans : ∀ id, HasVlan memory id → HasVlan later id)
    (ports : ∀ name, HasPort memory name → HasPort later name) : Grounded later contexts := by
  intro context member
  obtain ⟨vlan, interface⟩ := grounded context member
  constructor
  · intro isVlan
    obtain ⟨id, same, present⟩ := vlan isVlan
    exact ⟨id, same, vlans id present⟩
  · intro isInterface
    obtain ⟨name, same, present⟩ := interface isInterface
    exact ⟨name, same, ports name present⟩

/-- The session is in one of its modes, the rows are in order, and what the
contexts name is there. -/
structure InOrder (session : Session) (memory : Memory) : Prop where
  standing : session.Standing
  administered : Administered memory
  grounded : Grounded memory session.contexts

namespace Turn

variable {turn : Turn} {invocation : Invocation} {found : Match} {rest : List Exchange}
  {result : Except Fault Outcome} {workspace : Workspace}

/-- What a turn does to the tables is what some valid requests do. -/
theorem Occurs.exists_made {failure : Fault} (occurs : turn.Occurs)
    (builtin : turn.before.registry = Feature.builtin) (sorted : before.state.Sorted)
    (plays : Plays (Journal.transact outage failure Memory.transact) before turn.exchanges after) :
    ∃ made : List Request, (∀ request ∈ made, request.Valid) ∧
      after.state.tables = (made.foldl Request.effect before.state).tables := by
  cases asks_of_builtin builtin turn.line with
  | reads only =>
      have kept := Journal.state_of_plays_isRead sorted.tables plays (only.isRead occurs)
      exact ⟨[], List.forall_mem_nil _, congrArg Memory.tables kept⟩
  | @one request performs valid =>
      obtain ⟨result, asked, _⟩ := performs _ _ _ occurs
      obtain ⟨made, among, tables⟩ := Request.exists_made sorted asked plays
      exact ⟨made, fun other member => List.mem_singleton.mp (among other member) ▸ valid, tables⟩
  | lldp _ performs valid =>
      obtain ⟨result, asked, _⟩ := performs _ _ _ occurs
      obtain ⟨made, among, tables⟩ := Request.exists_made sorted asked plays
      exact ⟨made, fun other member => valid other (among other member), tables⟩

/-- The rows stay in order, and VLANs stay. -/
theorem Occurs.administered {failure : Fault} (occurs : turn.Occurs)
    (builtin : turn.before.registry = Feature.builtin) (administered : Administered before.state)
    (plays : Plays (Journal.transact outage failure Memory.transact) before turn.exchanges after) :
    Administered after.state ∧ ∀ id, HasVlan before.state id → HasVlan after.state id := by
  obtain ⟨made, valid, tables⟩ := occurs.exists_made builtin administered.sound.sorted plays
  obtain ⟨kept, stays⟩ := administered.foldl_effect valid
  exact ⟨kept.of_tables tables, fun id present => (stays id present).of_tables tables⟩

theorem Runs.isVlan (runs : turn.Runs invocation found rest result workspace)
    (contexts : turn.before.contexts = configStack) (entered : turn.after.contexts = vlanStack id) :
    invocation.handler = Vlan.configure := by
  have leaves : turn.after.contexts ≠ turn.before.contexts := by
    rw [entered, contexts]
    exact configStack_ne_vlanStack.symm
  have inConfig : turn.before.mode = configMode := by rw [mode, contexts]; rfl
  obtain ⟨command, member, _, handled⟩ := runs.command (inConfig ▸ builtin_commands_config)
  simp only [List.cons_append, List.nil_append, List.mem_cons] at member
  rcases member with rfl | rfl | rfl | member
  · exact handled
  · have ends := runs.ends
    rw [handled] at ends
    rcases Interface.enters_of_configure ends with ⟨fault, rfl, same⟩ | ⟨object, _, _, rfl, same⟩
    · exact absurd ((runs.goesOn (by simp)).2.trans same) leaves
    · have reached := entered.symm.trans ((runs.goesOn (by simp)).2.trans same)
      simp [vlanStack, vlanMode, interfaceMode] at reached
  · exact absurd (runs.kept (handled ▸ Lldp.configure_proceeds)).1 leaves
  · rcases exit_or_proceeds_of_global member with isExit | proceeds
    · have ends := runs.ends
      rw [handled, isExit] at ends
      obtain ⟨_, rfl, rfl⟩ := (Shell.ends_exit_iff _).mp ends
      have left : turn.after.contexts = turn.before.contexts.tail :=
        congrArg Session.contexts runs.reached
      rw [entered, contexts] at left
      contradiction
    · exact absurd (runs.kept (handled ▸ proceeds)).1 leaves

theorem Runs.creates (runs : turn.Runs invocation found rest result workspace)
    (contexts : turn.before.contexts = configStack) (entered : turn.after.contexts = vlanStack id) :
    Program.Yields (Request.create id).query.run rest (.ok ()) := by
  have ends := runs.ends
  rw [runs.isVlan contexts entered] at ends
  rcases Vlan.enters_of_configure ends with ⟨fault, rfl, same⟩ | ⟨number, bound, rfl, same⟩
  · rw [← (runs.goesOn (by simp)).2, entered, contexts] at same
    exact absurd same configStack_ne_vlanStack.symm
  · rw [← (runs.goesOn (by simp)).2, entered] at same
    obtain rfl : id = number := by simpa [vlanStack] using congrArg List.head? same
    rw [Vlan.configure_eq bound] at ends
    rcases Action.ends_bind_iff.mp ends with
      ⟨_, _, _, middle, rfl, asked, last⟩ | ⟨fault, _, impossible⟩
    · obtain ⟨rfl, _⟩ := quiet_enter _ _ _ _ _ last
      rw [List.append_nil]
      exact (Action.ends_query_iff.mp asked).1
    · contradiction

/-- A turn that enters the mode of a VLAN has made it, unless it was there. -/
theorem Runs.created {failure : Fault} (runs : turn.Runs invocation found rest result workspace)
    (sound : Sound before.state) (contexts : turn.before.contexts = configStack)
    (entered : turn.after.contexts = vlanStack id)
    (plays : Plays (Journal.transact outage failure Memory.transact) before turn.exchanges after) :
    HasVlan after.state id := by
  obtain ⟨_, _, first, _, split, resolved⟩ := runs.resolved
  rw [split] at plays
  obtain ⟨middle, begun, ended⟩ := plays.split
  have kept := Journal.state_of_plays_isRead sound.sorted.tables begun
    ((onlyReads_fetchNames _).isRead resolved.fetched)
  rw [← kept] at sound
  rw [Request.state_of_ok sound.sorted (runs.creates contexts entered) ended]
  exact hasVlan_effect_create sound

theorem Lists.hasPort {failure : Fault} (lists : turn.Lists name) (sound : Sound before.state)
    (plays : Plays (Journal.transact outage failure Memory.transact) before turn.exchanges after) :
    HasPort before.state name := by
  obtain ⟨names, yields, listed⟩ := lists
  have answered : ∀ exchange ∈ turn.exchanges, exchange.Answered := by
    rcases Query.yields_bind_iff.mp yields with
      ⟨first, rest, rows, split, selected, last⟩ | ⟨_, _, impossible⟩
    · obtain ⟨rfl, _⟩ := Query.yields_pure_iff.mp last
      rw [split, List.append_nil]
      exact Query.answered_of_select selected
    · contradiction
  have asked : Program.Yields (Query.names [.interface]).run turn.exchanges
      (.ok { interfaces := names }) := Query.yields_names_interface_iff.mpr ⟨_, yields, rfl⟩
  have answer := Program.run_eq_of_plays asked (Journal.plays_of_answered plays answered)
  cases (Prod.mk.inj (answer.symm.trans (answer_names sound))).1
  exact (hasPort_iff_mem_ports sound).mpr listed

/-- What a turn leaves behind is in order. -/
theorem Occurs.inOrder {failure : Fault} (occurs : turn.Occurs)
    (inOrder : turn.before.InOrder before.state)
    (plays : Plays (Journal.transact outage failure Memory.transact) before turn.exchanges after) :
    turn.after.InOrder after.state := by
  obtain ⟨⟨builtin, turns, shape⟩, administered, grounded⟩ := inOrder
  obtain ⟨moves, kept⟩ := occurs.moves builtin shape
  obtain ⟨later, vlans⟩ := occurs.administered builtin administered plays
  have ports : ∀ name, HasPort before.state name → HasPort after.state name := fun name present =>
    (hasPort_iff_mem_ports later.sound).mpr ((hasPort_iff_mem_ports administered.sound).mp present)
  have grounded := grounded.mono vlans ports
  refine ⟨⟨kept, _, shape.next moves⟩, later, ?_⟩
  cases moves with
  | stay same _ => exact same ▸ grounded
  | quit _ same => exact same ▸ List.forall_mem_nil _
  | leave out _ => exact out ▸ fun context member => grounded context (List.mem_of_mem_tail member)
  | configure _ entered _ => exact entered ▸ grounded_configStack
  | vlan _ _ inConfig entered _ =>
      rcases occurs.runs builtin with ⟨_, same, _⟩ | ⟨_, _, _, _, _, runs⟩
      · rw [same, inConfig] at entered
        exact absurd entered configStack_ne_vlanStack
      · exact entered ▸ grounded_vlanStack_iff.mpr
          (runs.created administered.sound inConfig entered plays)
  | interface listed _ entered _ =>
      exact entered ▸ grounded_interfaceStack_iff.mpr
        (ports _ (listed.hasPort administered.sound plays))

theorem failsWith_of_global {command : Command} (member : command ∈ globalCommands)
    (arguments : Arguments) : (command.handler arguments).FailsWith Fault.Grounded := by
  simp only [globalCommands, showCommands, Shell.globalCommands, List.drop_succ_cons,
    List.drop_zero, List.take_succ_cons, List.take_zero, List.cons_append, List.nil_append,
    List.mem_cons, List.not_mem_nil, or_false] at member
  rcases member with rfl | rfl | rfl | rfl | rfl | rfl | rfl | rfl | rfl
  · exact Shell.showVersion_failsWith _
  · exact Shell.showRunningConfig_failsWith arguments
  · exact Debug.showDebug_failsWith arguments
  · exact Vlan.showVlan_failsWith _
  · exact Interface.showInterface_failsWith _
  · exact Lldp.showLldp_failsWith _
  · exact Action.failsWith_pure _
  · exact Shell.showContexts_failsWith arguments
  · exact Debug.setDebug_failsWith _

section Faults

variable (runs : turn.Runs invocation found rest result workspace)
  (plays : Plays (Journal.transact outage (.database trouble) Memory.transact) before rest after)

include runs plays

theorem Runs.grounded_of_failsWith
    (failsWith : (invocation.handler invocation.arguments).FailsWith Fault.Grounded) :
    FaultIn Fault.Grounded result :=
  failsWith.of_ends runs.ends (Journal.grounded_of_plays plays)

theorem Runs.grounded_of_global {command : Command} (member : command ∈ globalCommands)
    (handled : invocation.handler = command.handler) : FaultIn Fault.Grounded result :=
  runs.grounded_of_failsWith plays (handled ▸ failsWith_of_global member _)

theorem Runs.grounded_in_root (contexts : turn.before.contexts = []) :
    FaultIn Fault.Grounded result := by
  have inRoot : turn.before.mode = rootMode := by rw [mode, contexts]; rfl
  obtain ⟨command, member, _, handled⟩ := runs.command (inRoot ▸ builtin_commands_root)
  simp only [Shell.rootCommands, List.cons_append, List.nil_append, List.mem_cons] at member
  rcases member with rfl | rfl | member
  · exact runs.grounded_of_failsWith plays (handled ▸ Action.failsWith_pure _)
  · have failsWith := @Shell.configure_failsWith invocation.arguments Fault.Grounded
    exact runs.grounded_of_failsWith plays (handled ▸ failsWith)
  · exact runs.grounded_of_global plays member handled

theorem Runs.grounded_in_config (contexts : turn.before.contexts = configStack) :
    FaultIn Fault.Grounded result := by
  have inConfig : turn.before.mode = configMode := by rw [mode, contexts]; rfl
  obtain ⟨command, member, _, handled⟩ := runs.command (inConfig ▸ builtin_commands_config)
  simp only [List.cons_append, List.nil_append, List.mem_cons] at member
  rcases member with rfl | rfl | rfl | member
  · exact runs.grounded_of_failsWith plays (handled ▸ Vlan.configure_failsWith _)
  · exact runs.grounded_of_failsWith plays (handled ▸ Interface.configure_failsWith _)
  · exact runs.grounded_of_failsWith plays (handled ▸ Lldp.configure_failsWith _)
  · exact runs.grounded_of_global plays member handled

theorem Runs.grounded_in_vlan (contexts : turn.before.contexts = vlanStack id)
    (sound : Sound before.state) (present : HasVlan before.state id) :
    FaultIn Fault.Grounded result := by
  have inVlan : turn.before.mode = vlanMode := by rw [mode, contexts]; rfl
  obtain ⟨command, member, _, handled⟩ := runs.command (inVlan ▸ builtin_commands_vlan)
  have ends := runs.ends
  rw [handled, contexts] at ends
  rcases List.mem_cons.mp member with rfl | member
  · rw [Action.Ends, Vlan.shutdownCommand, Vlan.run_shutdown rfl] at ends
    refine Request.faultIn_of_known sound ?_ ends plays
    exact (hasVlan_iff_mem_ids sound).mp present
  · exact runs.grounded_of_global plays member handled

theorem Runs.grounded_in_interface (contexts : turn.before.contexts = interfaceStack name)
    (sound : Sound before.state) (present : HasPort before.state name) :
    FaultIn Fault.Grounded result := by
  have inInterface : turn.before.mode = interfaceMode := by rw [mode, contexts]; rfl
  obtain ⟨command, member, _, handled⟩ := runs.command (inInterface ▸ builtin_commands_interface)
  have ends := runs.ends
  rw [handled, contexts] at ends
  simp only [List.cons_append, List.nil_append, List.mem_cons] at member
  rcases member with rfl | rfl | member
  · rw [Action.Ends, Interface.shutdownCommand, Interface.run_shutdown rfl] at ends
    refine Request.faultIn_of_known sound ?_ ends plays
    exact (hasPort_iff_mem_ports sound).mp present
  · rw [Action.Ends, Lldp.interfaceCommand, Lldp.run_configureInterface rfl] at ends
    refine Request.faultIn_of_known sound ?_ ends plays
    exact (hasPort_iff_mem_ports sound).mp present
  · exact runs.grounded_of_global plays member handled

/-- Whatever the mode is, a handler does not fail because a context dangles. -/
theorem Runs.grounded (inOrder : turn.before.InOrder before.state) :
    FaultIn Fault.Grounded result := by
  obtain ⟨⟨_, turns, shape⟩, ⟨sound, _⟩, grounded⟩ := inOrder
  generalize contexts : turn.before.contexts = stack at shape grounded
  cases shape with
  | root => exact runs.grounded_in_root plays contexts
  | config => exact runs.grounded_in_config plays contexts
  | vlan _ _ =>
      have present := grounded_vlanStack_iff.mp grounded
      exact runs.grounded_in_vlan plays contexts sound present
  | interface _ =>
      have present := grounded_interfaceStack_iff.mp grounded
      exact runs.grounded_in_interface plays contexts sound present

end Faults

/-- A turn in a session in order shows no error of a context that dangles. -/
theorem Occurs.shows (occurs : turn.Occurs) (inOrder : turn.before.InOrder before.state)
    (plays : Plays (Journal.transact outage (.database trouble) Memory.transact) before
      turn.exchanges after) :
    ∀ text, .error text ∈ turn.dispatch.output → ¬Dangling text := by
  intro text shown
  have builtin := inOrder.standing.builtin
  rcases occurs.runs builtin with
    ⟨prepared, _, _⟩ | ⟨invocation, found, rest, result, workspace, runs⟩
  · obtain ⟨fault, grounded, same⟩ := ofFault_of_prepare prepared (Journal.grounded_of_plays plays)
      (fun fault rejects => rejects.grounded) shown
    rw [same] at shown
    rcases Dispatch.mem_or_eq_of_mem_failed shown with inside | last
    · contradiction
    · cases last
      exact grounded
  · obtain ⟨_, _, first, _, split, resolved⟩ := runs.resolved
    rw [split] at plays
    obtain ⟨middle, begun, ended⟩ := plays.split
    have kept := Journal.state_of_plays_isRead inOrder.administered.sound.sorted.tables begun
      ((onlyReads_fetchNames _).isRead resolved.fetched)
    have grounded := runs.grounded ended (kept ▸ inOrder)
    obtain ⟨⟨reports, output, allReports⟩, _, _⟩ :=
      resolved.failsCleanly builtin _ _ _ _ runs.ends
    rw [List.nil_append] at output
    have noError : .error text ∉ workspace.output := fun inside =>
      allReports _ (output ▸ inside) text rfl
    rw [runs.dispatched] at shown
    cases result with
    | ok outcome => cases outcome <;> exact absurd shown noError
    | error fault =>
        rcases Dispatch.mem_or_eq_of_mem_failed shown with inside | last
        · exact absurd inside noError
        · cases last
          exact grounded fault rfl

end Turn

theorem inOrder_new (hostname : String) (debug : DebugKeys) :
    InOrder { registry := Feature.builtin, debug, hostname } Memory.initial :=
  ⟨⟨rfl, [], .root⟩, .initial, List.forall_mem_nil _⟩

/-- One line after the other leaves everything in order, and none shows an error
of a context that dangles. -/
theorem InOrder.dispatchAll (inOrder : session.InOrder before.state) (lines : List String) :
    let ran := Program.run (Journal.transact outage (.database trouble) Memory.transact)
      (session.dispatchAll lines) before
    ran.1.2.InOrder ran.2.state ∧
      ∀ dispatch ∈ ran.1.1, ∀ text, .error text ∈ dispatch.output → ¬Dangling text := by
  induction lines generalizing session before with
  | nil => exact ⟨inOrder, List.forall_mem_nil _⟩
  | cons line lines ih =>
      let backend := Journal.transact outage (.database trouble) Memory.transact
      obtain ⟨exchanges, yields, plays⟩ :=
        Program.exists_plays_run backend (session.dispatch line) before
      rw [run_dispatchAll_cons]
      generalize Program.run backend (session.dispatch line) before = first at yields plays ⊢
      let turn : Turn :=
        { before := session, line, exchanges, dispatch := first.1.1, after := first.1.2 }
      have occurs : turn.Occurs := yields
      obtain ⟨others, shown⟩ := ih (occurs.inOrder inOrder plays)
      exact ⟨others, List.forall_mem_cons.mpr ⟨occurs.shows inOrder plays, shown⟩⟩

/-- The bookkeeping of a session with the built-in commands, from the small switch
on and whichever transactions fail.  The VLANs have different numbers within
bounds and are to be up or down; a context of a VLAN or of an interface names one
that is there, so no line complains that there is none. -/
theorem grounded_of_dispatchAll (hostname : String) (debug : DebugKeys) (lines : List String)
    (outage : Nat → Bool) (trouble : DatabaseTrouble) :
    let session : Session := { registry := Feature.builtin, debug, hostname }
    let ran := Program.run (Journal.transact outage (.database trouble) Memory.transact)
      (session.dispatchAll lines) { state := Memory.initial }
    let vlans := ran.2.state.rows vlanTable
    (∃ ids : List Int, vlans.map (Dictionary.find? "id") = ids.map (fun id => some (.integer id)) ∧
      ids.Nodup ∧ ∀ id ∈ ids, 1 ≤ id ∧ id ≤ 4095) ∧
    (∀ row ∈ vlans, Dictionary.find? "admin" row = some (.string "up") ∨
      Dictionary.find? "admin" row = some (.string "down")) ∧
    Grounded ran.2.state ran.1.2.contexts ∧
    ∀ dispatch ∈ ran.1.1, ∀ text, .error text ∈ dispatch.output → ¬Dangling text := by
  intro session ran vlans
  let start : Journal Memory := { state := Memory.initial }
  have new : session.InOrder start.state := inOrder_new hostname debug
  obtain ⟨⟨_, ⟨sound, admin⟩, grounded⟩, shown⟩ :=
    @InOrder.dispatchAll outage trouble start session new lines
  refine ⟨⟨vlans.map Vlan.rowId, ?_, sound.different, ?_⟩, fun row member => ?_, grounded, shown⟩
  · rw [List.map_map]
    refine List.map_congr_left fun row member => ?_
    obtain ⟨number, column, same, _⟩ := sound.exists_id member
    rw [column, Function.comp_apply, same]
  · intro id listed
    obtain ⟨row, member, rfl⟩ := List.mem_map.mp listed
    obtain ⟨number, _, same, low, high⟩ := sound.exists_id member
    omega
  · obtain ⟨up, column⟩ := admin row member
    cases up with
    | true => exact .inl column
    | false => exact .inr column

end Session

end SwitchShell
