import SwitchShell.Proofs.Feature.Builtin
import SwitchShell.Proofs.Feature.Handlers
import SwitchShell.Proofs.Grammar.Bound
import SwitchShell.Proofs.Session.Preparation

namespace SwitchShell

namespace Session

open Feature

variable {session start after : Session} {line : String} {words : List String} {negated : Bool}
  {exchanges : List Exchange} {dispatch : Dispatch} {invocation : Invocation} {found : Match}
  {names : Names} {workspace : Workspace} {result : Except Fault Outcome}

/-- A line that was dispatched in a session, and what came of it. -/
structure Turn where
  before : Session
  line : String
  exchanges : List Exchange
  dispatch : Dispatch
  after : Session

/-- The turn is one the program may take. -/
def Turn.Occurs (turn : Turn) : Prop :=
  Program.Yields (turn.before.dispatch turn.line) turn.exchanges (turn.dispatch, turn.after)

/-- One turn after the other, from a session to a later one. -/
inductive Reaches (start : Session) : List Turn → Session → Prop where
  | start : Reaches start [] start
  | turn {turns : List Turn} {turn : Turn} (earlier : Reaches start turns turn.before)
      (occurs : turn.Occurs) : Reaches start (turns ++ [turn]) turn.after

def configStack : ContextStack := [{ mode := configMode }]

def vlanStack (id : Int) : ContextStack :=
  { mode := vlanMode, object := some (.integer id) } :: configStack

def interfaceStack (name : String) : ContextStack :=
  { mode := interfaceMode, object := some (.word name) } :: configStack

theorem configStack_ne_vlanStack {id : Int} : configStack ≠ vlanStack id := by
  simp [configStack, vlanStack]

/-- A turn that asks for the names of all interfaces and nothing else, and gets
this one among them. -/
def Turn.Lists (turn : Turn) (name : String) : Prop :=
  ∃ names, Program.Yields Query.interfaceNames.run turn.exchanges (.ok names) ∧ name ∈ names

/-- The last turn that entered the mode of an interface listed its name. -/
def EnteredInterface (turns : List Turn) (name : String) : Prop :=
  ∃ earlier entry later, turns = earlier ++ entry :: later ∧
    entry.before.contexts = configStack ∧ entry.Lists name ∧
    ∀ turn ∈ entry :: later, turn.after.contexts = interfaceStack name

/-- The stacks of contexts that turns may lead to. -/
inductive Shape (turns : List Turn) : ContextStack → Prop where
  | root : Shape turns []
  | config : Shape turns configStack
  | vlan {id : Int} (low : 1 ≤ id) (high : id ≤ 4095) : Shape turns (vlanStack id)
  | interface {name : String} (entered : EnteredInterface turns name) :
      Shape turns (interfaceStack name)

/-- What a turn may do to the contexts. -/
inductive Turn.Moves (turn : Turn) : Prop where
  | stay (same : turn.after.contexts = turn.before.contexts)
      (goesOn : turn.dispatch.terminate = false)
  | quit (atRoot : turn.before.contexts = []) (same : turn.after.contexts = [])
  | leave (out : turn.after.contexts = turn.before.contexts.tail)
      (ends : turn.dispatch.terminate = turn.before.contexts.isEmpty)
  | configure (atRoot : turn.before.contexts = []) (entered : turn.after.contexts = configStack)
      (goesOn : turn.dispatch.terminate = false)
  | vlan {id : Int} (low : 1 ≤ id) (high : id ≤ 4095)
      (inConfig : turn.before.contexts = configStack)
      (entered : turn.after.contexts = vlanStack id) (goesOn : turn.dispatch.terminate = false)
  | interface {name : String} (listed : turn.Lists name)
      (inConfig : turn.before.contexts = configStack)
      (entered : turn.after.contexts = interfaceStack name)
      (goesOn : turn.dispatch.terminate = false)

theorem registry_conclude : (session.conclude result workspace).2.registry = session.registry := by
  unfold conclude
  split <;> rfl

theorem conclude_goesOn (goesOn : ∀ outcome, result = .ok outcome → outcome = .proceed) :
    (session.conclude result workspace).1.terminate = false ∧
      (session.conclude result workspace).2.contexts = workspace.contexts := by
  cases result with
  | error fault => exact ⟨Dispatch.terminate_failed _ fault, rfl⟩
  | ok outcome =>
      rw [goesOn outcome rfl]
      exact ⟨rfl, rfl⟩

/-- The commands that are there in every mode let the session go on, but for
`exit`. -/
theorem exit_or_proceeds_of_global {command : Command} (member : command ∈ globalCommands) :
    command.handler = Shell.exit ∨ Proceeds command.handler := by
  simp only [globalCommands, showCommands, Shell.globalCommands, List.drop_succ_cons,
    List.drop_zero, List.take_succ_cons, List.take_zero, List.cons_append, List.nil_append,
    List.mem_cons, List.not_mem_nil, or_false] at member
  rcases member with rfl | rfl | rfl | rfl | rfl | rfl | rfl | rfl | rfl
  · exact .inr Shell.showVersion_proceeds
  · exact .inr Shell.showRunningConfig_proceeds
  · exact .inr Debug.showDebug_proceeds
  · exact .inr Vlan.showVlan_proceeds
  · exact .inr Interface.showInterface_proceeds
  · exact .inr Lldp.showLldp_proceeds
  · exact .inl rfl
  · exact .inr Shell.showContexts_proceeds
  · exact .inr Debug.setDebug_proceeds

/-- A command that was found is one of those of the mode. -/
theorem Resolved.command {commands : List Command}
    (resolved : session.Resolved negated words exchanges invocation found names)
    (builtin : session.registry = Feature.builtin)
    (listed : Feature.builtin.commands session.mode = commands.map Command.leaf) :
    ∃ command ∈ commands, found.node = command.leaf ∧ invocation.handler = command.handler := by
  have concrete : found.node.isConcrete = true := by
    simp [Node.isConcrete, resolved.handled]
  have looked := builtin ▸ resolved.looked
  have member := Registry.mem_commands_of_lookup builtin_built.wellFormed looked concrete
  rw [listed] at member
  obtain ⟨command, present, same⟩ := List.mem_map.mp member
  refine ⟨command, present, same.symm, ?_⟩
  have handled := resolved.handled
  rw [← same] at handled
  exact (Option.some.inj handled).symm

theorem Resolved.byToken
    (resolved : session.Resolved negated words exchanges invocation found names) :
    ∀ binding ∈ invocation.arguments.bindings,
      Binding.ByToken names found.node.options (words.drop found.consumed) binding :=
  Binding.byToken_of_ofWords (bind_eq_ok_iff.mp resolved.bound).1

/-- The number of the `vlan` command is a VLAN identifier. -/
theorem Resolved.vlan_bounds {id : Int}
    (resolved : session.Resolved negated words exchanges invocation found names)
    (isVlan : found.node = Vlan.configureCommand.leaf)
    (number : invocation.arguments.integer? = some id) : 1 ≤ id ∧ id ≤ 4095 := by
  obtain ⟨value, member, integer⟩ := List.exists_of_findSome?_eq_some number
  obtain ⟨binding, bound, rfl⟩ := List.mem_map.mp member
  obtain ⟨group, token, word, option, slot, _, boundTo⟩ := resolved.byToken binding bound
  rw [isVlan] at option
  have only : group = (OptionGroup.oneOf [Vlan.identifier, Vlan.internal]).mandatory :=
    List.mem_singleton.mp (List.mem_of_getElem? option)
  have either : token = Vlan.identifier ∨ token = Vlan.internal := by
    rw [only] at slot
    simpa [OptionGroup.mandatory, OptionGroup.oneOf] using List.mem_of_getElem? slot
  rcases either with rfl | rfl
  · obtain ⟨bounded, same, low, high⟩ := Token.bounds_of_bind rfl boundTo
    rw [same] at integer
    cases integer
    exact ⟨low, high⟩
  · rw [Token.keyword_of_bind rfl boundTo] at integer
    contradiction

/-- The object of the `interface` command is a name from the database, which was
asked for nothing else. -/
theorem Resolved.interface_listed {value : Value}
    (resolved : session.Resolved negated words exchanges invocation found names)
    (isInterface : found.node = Interface.configureCommand.leaf)
    (first : invocation.arguments.first? = some value) :
    ∃ name interfaces, value = .word name ∧ name ∈ interfaces ∧
      Program.Yields Query.interfaceNames.run exchanges (.ok interfaces) := by
  have fetched := resolved.fetched
  rw [isInterface] at fetched
  obtain ⟨answer, asked, same⟩ := Query.yields_names_interface_iff.mp fetched
  cases answer with
  | error fault => contradiction
  | ok interfaces =>
      cases same
      obtain ⟨binding, bound, rfl⟩ := List.mem_map.mp (List.mem_of_mem_head? first)
      obtain ⟨group, token, word, option, slot, _, boundTo⟩ := resolved.byToken binding bound
      rw [isInterface] at option
      have only : group = (OptionGroup.oneOf [.name .interface]).mandatory :=
        List.mem_singleton.mp (List.mem_of_getElem? option)
      have name : token = .name .interface := by
        rw [only] at slot
        exact List.mem_singleton.mp (List.mem_of_getElem? slot)
      obtain ⟨same, listed⟩ := Token.listed_of_bind (congrArg Token.kind name) boundTo
      exact ⟨word, interfaces, same, listed, asked⟩

/-- A turn that ran a built-in command: how it was found, and how its handler ended. -/
structure Turn.Runs (turn : Turn) (invocation : Invocation) (found : Match)
    (rest : List Exchange) (result : Except Fault Outcome) (workspace : Workspace) : Prop where
  builtin : turn.before.registry = Feature.builtin
  resolved : ∃ negated words first names, turn.exchanges = first ++ rest ∧
    turn.before.Resolved negated words first invocation found names
  ends : (invocation.handler invocation.arguments).Ends
    { contexts := turn.before.contexts, debug := turn.before.debug } rest result workspace
  dispatched : turn.dispatch = (turn.before.conclude result workspace).1
  reached : turn.after = (turn.before.conclude result workspace).2

namespace Turn

variable {turn : Turn} {rest : List Exchange}

theorem Runs.goesOn (runs : turn.Runs invocation found rest result workspace)
    (goesOn : ∀ outcome, result = .ok outcome → outcome = .proceed) :
    turn.dispatch.terminate = false ∧ turn.after.contexts = workspace.contexts := by
  rw [runs.dispatched, runs.reached]
  exact conclude_goesOn goesOn

theorem Runs.kept (runs : turn.Runs invocation found rest result workspace)
    (proceeds : Proceeds invocation.handler) :
    turn.after.contexts = turn.before.contexts ∧ turn.dispatch.terminate = false := by
  obtain ⟨kept, goesOn⟩ := proceeds _ _ _ _ _ runs.ends
  obtain ⟨terminate, contexts⟩ := runs.goesOn goesOn
  exact ⟨contexts.trans kept, terminate⟩

theorem Runs.stay (runs : turn.Runs invocation found rest result workspace)
    (proceeds : Proceeds invocation.handler) : turn.Moves :=
  .stay (runs.kept proceeds).1 (runs.kept proceeds).2

theorem Runs.leave (runs : turn.Runs invocation found rest result workspace)
    (isExit : invocation.handler = Shell.exit) : turn.Moves := by
  have ends := runs.ends
  rw [isExit] at ends
  obtain ⟨_, rfl, rfl⟩ := (Shell.ends_exit_iff _).mp ends
  exact .leave (congrArg Session.contexts runs.reached)
    (congrArg Dispatch.terminate runs.dispatched)

theorem Runs.command {commands : List Command}
    (runs : turn.Runs invocation found rest result workspace)
    (listed : Feature.builtin.commands turn.before.mode = commands.map Command.leaf) :
    ∃ command ∈ commands, found.node = command.leaf ∧ invocation.handler = command.handler := by
  obtain ⟨_, _, _, _, _, resolved⟩ := runs.resolved
  exact resolved.command runs.builtin listed

theorem Runs.moves_of_global {command : Command}
    (runs : turn.Runs invocation found rest result workspace) (member : command ∈ globalCommands)
    (handled : invocation.handler = command.handler) : turn.Moves := by
  rcases exit_or_proceeds_of_global member with isExit | proceeds
  · exact runs.leave (handled.trans isExit)
  · exact runs.stay (handled ▸ proceeds)

theorem Runs.moves_in_root (runs : turn.Runs invocation found rest result workspace)
    (contexts : turn.before.contexts = []) : turn.Moves := by
  have inRoot : turn.before.mode = rootMode := by rw [mode, contexts]; rfl
  obtain ⟨command, member, _, handled⟩ := runs.command (inRoot ▸ builtin_commands_root)
  simp only [Shell.rootCommands, List.cons_append, List.nil_append, List.mem_cons] at member
  have ends := runs.ends
  rw [handled] at ends
  rcases member with rfl | rfl | member
  · obtain ⟨_, rfl, rfl⟩ := (Shell.ends_quit_iff invocation.arguments).mp ends
    exact .quit contexts ((congrArg Session.contexts runs.reached).trans contexts)
  · obtain ⟨_, rfl, rfl⟩ := (Shell.ends_configure_iff invocation.arguments).mp ends
    obtain ⟨terminate, entered⟩ := runs.goesOn (by simp)
    exact .configure contexts (entered.trans (by rw [contexts]; rfl)) terminate
  · exact runs.moves_of_global member handled

theorem Runs.moves_of_vlan (runs : turn.Runs invocation found rest result workspace)
    (contexts : turn.before.contexts = configStack)
    (isVlan : found.node = Vlan.configureCommand.leaf)
    (handled : invocation.handler = Vlan.configure) : turn.Moves := by
  obtain ⟨_, _, _, _, _, resolved⟩ := runs.resolved
  have ends := runs.ends
  rw [handled] at ends
  rcases Vlan.enters_of_configure ends with ⟨fault, rfl, kept⟩ | ⟨id, number, rfl, entered⟩
  · obtain ⟨terminate, left⟩ := runs.goesOn (by simp)
    exact .stay (left.trans kept) terminate
  · obtain ⟨terminate, left⟩ := runs.goesOn (by simp)
    obtain ⟨low, high⟩ := resolved.vlan_bounds isVlan number
    exact .vlan low high contexts (left.trans (by rw [entered, contexts]; rfl)) terminate

theorem Runs.moves_of_interface (runs : turn.Runs invocation found rest result workspace)
    (contexts : turn.before.contexts = configStack)
    (isInterface : found.node = Interface.configureCommand.leaf)
    (handled : invocation.handler = Interface.configure) : turn.Moves := by
  obtain ⟨_, _, _, _, split, resolved⟩ := runs.resolved
  have ends := runs.ends
  rw [handled] at ends
  rcases Interface.enters_of_configure ends with
    ⟨fault, rfl, kept⟩ | ⟨value, bound, rfl, rfl, entered⟩
  · obtain ⟨terminate, left⟩ := runs.goesOn (by simp)
    exact .stay (left.trans kept) terminate
  · obtain ⟨terminate, left⟩ := runs.goesOn (by simp)
    obtain ⟨name, interfaces, rfl, listed, asked⟩ := resolved.interface_listed isInterface bound
    rw [List.append_nil] at split
    exact .interface ⟨interfaces, split ▸ asked, listed⟩ contexts
      (left.trans (by rw [entered, contexts]; rfl)) terminate

theorem Runs.moves_in_config (runs : turn.Runs invocation found rest result workspace)
    (contexts : turn.before.contexts = configStack) : turn.Moves := by
  have inConfig : turn.before.mode = configMode := by rw [mode, contexts]; rfl
  obtain ⟨command, member, same, handled⟩ := runs.command (inConfig ▸ builtin_commands_config)
  simp only [List.cons_append, List.nil_append, List.mem_cons] at member
  rcases member with rfl | rfl | rfl | member
  · exact runs.moves_of_vlan contexts same handled
  · exact runs.moves_of_interface contexts same handled
  · exact runs.stay (handled ▸ Lldp.configure_proceeds)
  · exact runs.moves_of_global member handled

theorem Runs.moves_in_vlan {id : Int} (runs : turn.Runs invocation found rest result workspace)
    (contexts : turn.before.contexts = vlanStack id) : turn.Moves := by
  have inVlan : turn.before.mode = vlanMode := by rw [mode, contexts]; rfl
  obtain ⟨command, member, _, handled⟩ := runs.command (inVlan ▸ builtin_commands_vlan)
  rcases List.mem_cons.mp member with rfl | member
  · exact runs.stay (handled ▸ Vlan.shutdown_proceeds)
  · exact runs.moves_of_global member handled

theorem Runs.moves_in_interface {name : String}
    (runs : turn.Runs invocation found rest result workspace)
    (contexts : turn.before.contexts = interfaceStack name) : turn.Moves := by
  have inInterface : turn.before.mode = interfaceMode := by rw [mode, contexts]; rfl
  obtain ⟨command, member, _, handled⟩ := runs.command (inInterface ▸ builtin_commands_interface)
  simp only [List.cons_append, List.nil_append, List.mem_cons] at member
  rcases member with rfl | rfl | member
  · exact runs.stay (handled ▸ Interface.shutdown_proceeds)
  · exact runs.stay (handled ▸ Lldp.configureInterface_proceeds)
  · exact runs.moves_of_global member handled

/-- A turn ends before a handler runs and leaves the session as it is, or it runs
a built-in command. -/
theorem Occurs.runs (occurs : turn.Occurs) (builtin : turn.before.registry = Feature.builtin) :
    (Program.Yields (turn.before.prepare turn.line) turn.exchanges (.error turn.dispatch) ∧
        turn.after = turn.before ∧ turn.dispatch.terminate = false) ∨
      ∃ invocation found rest result workspace,
        turn.Runs invocation found rest result workspace := by
  have yields : Program.Yields _ _ _ := occurs
  rw [dispatch_eq_andThen] at yields
  obtain ⟨first, rest, prepared, split, begun, ended⟩ := Program.yields_andThen_iff.mp yields
  rcases resolved_of_yields_prepare begun with
    ⟨only, rfl, goesOn⟩ | ⟨negated, words, invocation, found, names, rfl, resolved⟩
  · obtain ⟨rfl, same⟩ := Program.yields_done_iff.mp ended
    obtain ⟨dispatched, kept⟩ := Prod.mk.inj same
    rw [List.append_nil] at split
    exact .inl ⟨split ▸ dispatched ▸ begun, kept, dispatched ▸ goesOn⟩
  · obtain ⟨handled, _, ⟨result, workspace⟩, rfl, ran, concluded⟩ :=
      Program.yields_andThen_iff.mp ended
    obtain ⟨rfl, same⟩ := Program.yields_done_iff.mp concluded
    obtain ⟨dispatched, reached⟩ := Prod.mk.inj same
    rw [List.append_nil] at split
    exact .inr ⟨invocation, found, handled, result, workspace, builtin,
      ⟨negated, words, first, names, split, resolved⟩, ran, dispatched, reached⟩

/-- The step lemma: a turn from one of the stacks is one of the moves. -/
theorem Occurs.moves {turns : List Turn} (occurs : turn.Occurs)
    (builtin : turn.before.registry = Feature.builtin)
    (shape : Shape turns turn.before.contexts) :
    turn.Moves ∧ turn.after.registry = Feature.builtin := by
  rcases occurs.runs builtin with
    ⟨_, same, goesOn⟩ | ⟨invocation, found, rest, result, workspace, runs⟩
  · exact ⟨.stay (congrArg Session.contexts same) goesOn, same ▸ builtin⟩
  · have kept : turn.after.registry = turn.before.registry :=
      (congrArg Session.registry runs.reached).trans registry_conclude
    refine ⟨?_, kept.trans builtin⟩
    generalize contexts : turn.before.contexts = stack at shape
    cases shape with
    | root => exact runs.moves_in_root contexts
    | config => exact runs.moves_in_config contexts
    | vlan _ _ => exact runs.moves_in_vlan contexts
    | interface _ => exact runs.moves_in_interface contexts

theorem Moves.atRoot (moves : turn.Moves) (ends : turn.dispatch.terminate = true) :
    turn.before.contexts = [] := by
  cases moves with
  | quit atRoot _ => exact atRoot
  | configure atRoot _ _ => exact atRoot
  | leave _ isEnd =>
      rw [isEnd] at ends
      exact List.isEmpty_iff.mp ends
  | stay _ goesOn | vlan _ _ _ _ goesOn | interface _ _ _ goesOn =>
      rw [goesOn] at ends
      contradiction

end Turn

theorem EnteredInterface.later {turns : List Turn} {turn : Turn} {name : String}
    (entered : EnteredInterface turns name) (kept : turn.after.contexts = interfaceStack name) :
    EnteredInterface (turns ++ [turn]) name := by
  obtain ⟨earlier, entry, later, rfl, inConfig, listed, since⟩ := entered
  refine ⟨earlier, entry, later ++ [turn], by simp, inConfig, listed, ?_⟩
  intro other member
  rw [← List.cons_append] at member
  rcases List.mem_append.mp member with before | last
  · exact since other before
  · rw [List.mem_singleton.mp last]
    exact kept

theorem Shape.tail {turns : List Turn} {stack : ContextStack} (shape : Shape turns stack) :
    Shape turns stack.tail := by
  cases shape with
  | root => exact .root
  | config => exact .root
  | vlan _ _ => exact .config
  | interface _ => exact .config

theorem Shape.length_le {turns : List Turn} {stack : ContextStack} (shape : Shape turns stack) :
    stack.length ≤ 2 := by
  cases shape <;> simp [configStack, vlanStack, interfaceStack]

theorem Shape.next {turns : List Turn} {turn : Turn} (shape : Shape turns turn.before.contexts)
    (moves : turn.Moves) : Shape (turns ++ [turn]) turn.after.contexts := by
  -- One more turn leaves a shape as it is if the stack after it is the same: it
  -- counts among the turns since the interface was entered.
  have grown : ∀ {stack}, Shape turns stack → turn.after.contexts = stack →
      Shape (turns ++ [turn]) stack := by
    intro stack shape reached
    cases shape with
    | root => exact .root
    | config => exact .config
    | vlan low high => exact .vlan low high
    | interface entered => exact .interface (entered.later reached)
  cases moves with
  | stay same _ => exact same ▸ grown shape same
  | quit _ same => exact same ▸ .root
  | leave out _ => exact out ▸ grown shape.tail out
  | configure _ entered _ => exact entered ▸ .config
  | vlan low high _ entered _ => exact entered ▸ .vlan low high
  | @interface name listed inConfig entered _ =>
      rw [entered]
      refine .interface ⟨turns, turn, [], rfl, inConfig, listed, ?_⟩
      intro other member
      rw [List.mem_singleton.mp member]
      exact entered

/-- The run lemma: turns from a new session lead to one of the stacks. -/
theorem Reaches.shape {turns : List Turn} (reaches : start.Reaches turns session)
    (builtin : start.registry = Feature.builtin) (new : start.contexts = []) :
    session.registry = Feature.builtin ∧ Shape turns session.contexts := by
  induction reaches with
  | start => exact ⟨builtin, new ▸ .root⟩
  | turn _ occurs ih =>
      obtain ⟨moves, kept⟩ := occurs.moves ih.1 ih.2
      exact ⟨kept, ih.2.next moves⟩

def dispatchAll (session : Session) : List String → Program (List Dispatch × Session)
  | [] => .done ([], session)
  | line :: lines =>
      Program.andThen
        (fun (first, later) =>
          Program.andThen (fun (others, last) => .done (first :: others, last))
            (later.dispatchAll lines))
        (session.dispatch line)

theorem run_dispatchAll_cons {σ : Type} (backend : Backend σ) (state : σ) (lines : List String) :
    Program.run backend (session.dispatchAll (line :: lines)) state =
      let first := Program.run backend (session.dispatch line) state
      let others := Program.run backend (first.1.2.dispatchAll lines) first.2
      ((first.1.1 :: others.1.1, others.1.2), others.2) := by
  rw [dispatchAll, Program.run_andThen, Program.run_andThen]
  rfl

/-- The line `exit` leaves the innermost mode, or else ends the session. -/
theorem dispatch_exit {turns : List Turn} (builtin : session.registry = Feature.builtin)
    (shape : Shape turns session.contexts) :
    session.dispatch "exit" =
      .done ({ terminate := session.contexts.isEmpty },
        { session with contexts := session.contexts.tail }) := by
  obtain ⟨registry, contexts, debug, hostname⟩ := session
  cases builtin
  cases shape <;> rfl

/-- As many lines `exit` as there are contexts leave them one by one; then other
lines may follow. -/
theorem dispatchAll_exits {turns : List Turn} {count : Nat} (lines : List String)
    (builtin : session.registry = Feature.builtin) (shape : Shape turns session.contexts)
    (few : count ≤ session.contexts.length) :
    session.dispatchAll (List.replicate count "exit" ++ lines) =
      Program.andThen
        (fun (others, last) => .done (List.replicate count ({} : Dispatch) ++ others, last))
        (({ session with contexts := session.contexts.drop count } : Session).dispatchAll
          lines) := by
  -- Each line is dispatched in the session that the one before has left.
  induction count generalizing session with
  | zero =>
      simp only [List.replicate_zero, List.nil_append, List.drop_zero]
      exact (Program.andThen_done _).symm
  | succ count ih =>
      obtain ⟨context, outer, contexts⟩ :=
        List.exists_cons_of_length_pos (Nat.zero_lt_of_lt few)
      let left : Session := { session with contexts := session.contexts.tail }
      have fewer : count ≤ left.contexts.length := by
        rw [List.length_tail]
        exact Nat.le_sub_one_of_lt few
      have inner := @ih left builtin shape.tail fewer
      rw [List.replicate_succ, List.cons_append, dispatchAll, dispatch_exit builtin shape]
      simp only [Program.andThen]
      rw [inner, Program.andThen_assoc]
      simp only [left, Program.andThen, contexts, List.isEmpty_cons, List.tail_cons,
        List.drop_succ_cons, List.replicate_succ, List.cons_append]

/-- The shape of every session with the built-in commands.  Turns from an empty
stack lead to one of four kinds of stacks, only an empty stack lets a turn end
the session, and lines `exit` leave the contexts one by one until the last such
line ends the session. -/
theorem contexts_of_reaches {turns : List Turn} (reaches : start.Reaches turns session)
    (builtin : start.registry = Feature.builtin) (new : start.contexts = []) :
    Shape turns session.contexts ∧
      (∀ turn : Turn, turn.before = session → turn.Occurs → turn.dispatch.terminate = true →
        session.contexts = []) ∧
      session.contexts.length ≤ 2 ∧
      (∀ count ≤ session.contexts.length,
        session.dispatchAll (List.replicate count "exit") =
          .done (List.replicate count {},
            { session with contexts := session.contexts.drop count })) ∧
      session.dispatchAll (List.replicate (session.contexts.length + 1) "exit") =
        .done (List.replicate session.contexts.length ({} : Dispatch) ++ [{ terminate := true }],
          { session with contexts := [] }) := by
  obtain ⟨commands, shape⟩ := reaches.shape builtin new
  refine ⟨shape, ?_, shape.length_le, ?_, ?_⟩
  · rintro turn rfl occurs ends
    exact (occurs.moves commands shape).1.atRoot ends
  · intro count few
    have left := dispatchAll_exits [] commands shape few
    simpa [dispatchAll, Program.andThen] using left
  · have left := dispatchAll_exits ["exit"] commands shape (Nat.le_refl _)
    rw [List.replicate_succ', left, List.drop_length]
    let top : Session := { session with contexts := [] }
    have inRoot : Shape turns top.contexts := .root
    have last : top.dispatch "exit" = .done ({ terminate := true }, top) :=
      dispatch_exit commands inRoot
    simp [dispatchAll, last, top, Program.andThen]

def newSession : Session :=
  { registry := Feature.builtin, hostname := "switch" }

/-- A session that has entered configuration mode and then that of a new VLAN. -/
def vlanSession : Session :=
  { newSession with contexts := vlanStack 100 }

def configureTurn : Turn where
  before := newSession
  line := "conf t"
  exchanges := []
  dispatch := {}
  after := { newSession with contexts := configStack }

/-- The database knows no such VLAN yet and takes the new one. -/
def vlanTurn : Turn where
  before := configureTurn.after
  line := "vlan 100"
  exchanges := [
    { operations := [.select vlanTable [Vlan.identified 100] (some ["id"])]
      answer := .ok [{ rows := [] }] },
    { operations := [.insert vlanTable (Vlan.newRow 100)], answer := .ok [{}] }]
  dispatch := {}
  after := vlanSession

theorem vlanSession_contexts :
    newSession.Reaches [configureTurn, vlanTurn] vlanSession ∧
      Shape [configureTurn, vlanTurn] vlanSession.contexts ∧
      (∀ turn : Turn, turn.before = vlanSession → turn.Occurs →
        turn.dispatch.terminate = true → vlanSession.contexts = []) ∧
      vlanSession.dispatchAll ["exit", "exit", "exit"] =
        .done ([{}, {}, { terminate := true }], newSession) := by
  have configured : configureTurn.Occurs := .done _
  have entered : vlanTurn.Occurs := .transact _ (.transact _ (.done _))
  have reaches : newSession.Reaches [configureTurn, vlanTurn] vlanSession :=
    .turn (.turn .start configured) entered
  obtain ⟨shape, terminates, _, _, left⟩ := contexts_of_reaches reaches rfl rfl
  exact ⟨reaches, shape, terminates, left⟩

end Session

end SwitchShell
