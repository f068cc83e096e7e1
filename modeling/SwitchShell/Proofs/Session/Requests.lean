import SwitchShell.Proofs.Feature.Change
import SwitchShell.Proofs.Feature.Reading
import SwitchShell.Proofs.Session.Modes

namespace SwitchShell

namespace Feature

/-- The commands that can change the database. -/
def writers : List Command :=
  [Vlan.configureCommand, Vlan.shutdownCommand, Interface.shutdownCommand, Lldp.configureCommand,
    Lldp.interfaceCommand]

/-- All built-in commands, tree by tree. -/
def builtinCommands : List Command :=
  [Vlan.configureCommand, Interface.configureCommand, Lldp.configureCommand] ++ globalCommands ++
    [Interface.shutdownCommand, Lldp.interfaceCommand] ++ Shell.rootCommands ++
    [Vlan.shutdownCommand]

theorem concrete_builtin :
    (builtin.trees.flatMap fun entry => entry.2.concrete) = builtinCommands.map Command.leaf := rfl

theorem mem_builtinCommands {mode : String} {node : Node} (member : node ∈ builtin.commands mode) :
    ∃ command ∈ builtinCommands, node = command.leaf := by
  obtain ⟨tree, searched, inside⟩ := List.mem_flatMap.mp member
  have listed : ∀ searched, tree ∈ (builtin.tree? searched).toList →
      ∃ entry ∈ builtin.trees, entry.2 = tree := fun searched found =>
    ⟨_, Dictionary.mem_of_find? (Option.mem_toList.mp found), rfl⟩
  have known : ∃ entry ∈ builtin.trees, entry.2 = tree := by
    rcases List.mem_append.mp searched with own | shared
    · exact listed _ own
    · split at shared
      · contradiction
      · exact listed _ shared
  obtain ⟨entry, present, rfl⟩ := known
  have among : node ∈ builtin.trees.flatMap fun entry => entry.2.concrete :=
    List.mem_flatMap.mpr ⟨entry, present, inside⟩
  rw [concrete_builtin] at among
  obtain ⟨command, among, same⟩ := List.mem_map.mp among
  exact ⟨command, among, same.symm⟩

theorem onlyReads_of_global {command : Command} (member : command ∈ globalCommands) :
    OnlyReads command.handler := by
  simp only [globalCommands, showCommands, Shell.globalCommands, List.drop_succ_cons,
    List.drop_zero, List.take_succ_cons, List.take_zero, List.cons_append, List.nil_append,
    List.mem_cons, List.not_mem_nil, or_false] at member
  rcases member with rfl | rfl | rfl | rfl | rfl | rfl | rfl | rfl | rfl
  · exact Shell.onlyReads_showVersion
  · exact Shell.onlyReads_showRunningConfig
  · exact Debug.onlyReads_showDebug
  · exact Vlan.onlyReads_showVlan
  · exact Interface.onlyReads_showInterface
  · exact Lldp.onlyReads_showLldp
  · exact Shell.onlyReads_exit
  · exact Shell.onlyReads_showContexts
  · exact Debug.onlyReads_setDebug

theorem onlyReads_or_writer {command : Command} (member : command ∈ builtinCommands) :
    OnlyReads command.handler ∨ command ∈ writers := by
  simp only [builtinCommands, Shell.rootCommands, List.mem_append, List.mem_cons, List.not_mem_nil,
    or_false] at member
  rcases member with ((((rfl | rfl | rfl) | member) | rfl | rfl) | rfl | rfl) | rfl
  · exact .inr (by simp [writers])
  · exact .inl Interface.onlyReads_configure
  · exact .inr (by simp [writers])
  · exact .inl (onlyReads_of_global member)
  · exact .inr (by simp [writers])
  · exact .inr (by simp [writers])
  · exact .inl Shell.onlyReads_quit
  · exact .inl Shell.onlyReads_configure
  · exact .inr (by simp [writers])

end Feature

/-- What a line leads to that does nothing but ask. -/
def Dispatch.ofResult : Except Fault Unit → Dispatch
  | .ok () => {}
  | .error fault => ofFault fault

namespace Session

open Feature

variable {session after : Session} {line : String} {words : List String} {negated : Bool}
  {exchanges : List Exchange} {dispatch : Dispatch} {invocation : Invocation} {found : Match}
  {names : Names}

/-- The line makes these requests in turn, and leads to nothing but their failure. -/
def Performs (session : Session) (line : String) (requests : List Request) : Prop :=
  ∀ exchanges dispatch after,
    Program.Yields (session.dispatch line) exchanges (dispatch, after) →
      ∃ result, Program.Yields (Request.inTurn requests).run exchanges result ∧
        dispatch = Dispatch.ofResult result

theorem onlyReads_fetchNames (options : List OptionGroup) : (fetchNames options).OnlyReads := by
  unfold fetchNames
  split
  · exact Query.onlyReads_pure _
  · exact Query.onlyReads_names _

theorem onlyReads_prepareWords : (session.prepareWords negated words).OnlyReads := by
  have resolves : (resolve session.registry session.mode negated words).OnlyReads := by
    refine (Query.onlyReads_of _).bind fun found => ?_
    split
    · exact Query.onlyReads_throw _
    · refine (onlyReads_fetchNames _).bind fun names => ?_
      exact (Query.onlyReads_of _).bind fun _ => Query.onlyReads_pure _
  exact Program.OnlyReads.andThen resolves fun _ => trivial

theorem onlyReads_prepare : (session.prepare line).OnlyReads := by
  unfold prepare
  split
  · trivial
  · trivial
  · exact onlyReads_prepareWords
  · exact onlyReads_prepareWords

theorem onlyReads_invoke (reads : OnlyReads invocation.handler) :
    (session.invoke invocation).OnlyReads :=
  Program.OnlyReads.andThen (reads _ _) fun _ => trivial

/-- The action asks for nothing, shows nothing and lets the session go on. -/
def Quiet (action : Action Outcome) : Prop :=
  ∀ before exchanges result after, action.Ends before exchanges result after →
    exchanges = [] ∧ result = .ok .proceed ∧ after.output = before.output

theorem quiet_proceed : Quiet (pure .proceed) := by
  intro before exchanges result after ends
  obtain ⟨rfl, rfl, rfl⟩ := Action.ends_pure_iff.mp ends
  exact ⟨rfl, rfl, rfl⟩

theorem quiet_enter (context : Context) :
    Quiet (do Action.enter context
              return .proceed) := by
  intro before exchanges result after ends
  simp only [Action.ends_bind_iff, Action.ends_enter_iff, Action.ends_pure_iff] at ends
  grind

/-- A handler that makes requests and then does something quiet. -/
theorem performs_of_run {requests : List Request} {last : Action Outcome}
    (prepared : session.prepare line = .done (.ok invocation)) (quiet : Quiet last)
    (runs : (invocation.handler invocation.arguments).run
        { contexts := session.contexts, debug := session.debug } =
      (Action.query (Request.inTurn requests) >>= fun _ => last).run
        { contexts := session.contexts, debug := session.debug }) :
    session.Performs line requests := by
  intro exchanges dispatch after yields
  rw [dispatch_eq_andThen, prepared] at yields
  change Program.Yields (session.invoke invocation) _ _ at yields
  obtain ⟨first, rest, ⟨result, workspace⟩, rfl, ran, concluded⟩ :=
    Program.yields_andThen_iff.mp yields
  obtain ⟨rfl, same⟩ := Program.yields_done_iff.mp concluded
  rw [runs] at ran
  rw [List.append_nil]
  rcases Action.ends_bind_iff.mp ran with
    ⟨asked, finished, _, middle, rfl, query, ended⟩ | ⟨fault, query, rfl⟩
  · obtain ⟨answered, rfl⟩ := Action.ends_query_iff.mp query
    obtain ⟨rfl, rfl, output⟩ := quiet _ _ _ _ ended
    rw [List.append_nil]
    refine ⟨.ok (), answered, (congrArg Prod.fst same).trans ?_⟩
    rw [conclude, output]
    rfl
  · obtain ⟨answered, rfl⟩ := Action.ends_query_iff.mp query
    exact ⟨.error fault, answered, congrArg Prod.fst same⟩

/-- A value that an option has is bound by the token of its slot. -/
theorem Resolved.token_of_get? {option slot : Nat} {value : Value}
    (resolved : session.Resolved negated words exchanges invocation found names)
    (given : invocation.arguments.get? option slot = some value) :
    ∃ group token word, found.node.options[option]? = some group ∧
      group.tokens[slot]? = some token ∧ token.bind names word = .ok value := by
  obtain ⟨binding, located, rfl⟩ := Option.map_eq_some_iff.mp given
  have place := List.find?_some located
  rw [Bool.and_eq_true, beq_iff_eq, beq_iff_eq] at place
  obtain ⟨group, token, word, held, within, _, boundTo⟩ :=
    resolved.byToken binding (List.mem_of_find?_eq_some located)
  exact ⟨group, token, word, place.1 ▸ held, place.2 ▸ within, boundTo⟩

/-- A word that the `lldp` command takes for an advertisement is one. -/
theorem Resolved.advertisement {word : String}
    (resolved : session.Resolved negated words exchanges invocation found names)
    (isLldp : found.node = Lldp.configureCommand.leaf)
    (given : invocation.arguments.word? 3 1 = some word) :
    (Lldp.advertisements.find? fun advertisement => advertisement.word == word).isSome := by
  obtain ⟨value, got, isWord⟩ := Option.bind_eq_some_iff.mp given
  obtain ⟨group, token, spoken, option, slot, boundTo⟩ := resolved.token_of_get? got
  rw [isLldp] at option
  cases option
  cases slot
  obtain ⟨literal, member, same⟩ := Token.choice_of_bind rfl boundTo
  obtain ⟨⟨name, help⟩, listed, rfl⟩ := List.mem_map.mp member
  obtain ⟨advertisement, among, pair⟩ := List.mem_map.mp listed
  cases pair
  rw [same] at isWord
  cases isWord
  exact List.find?_isSome.mpr ⟨advertisement, among, beq_self_eq_true _⟩

theorem isNumber_of_bind {token : Token} {low high : Nat} {word : String} {value : Value}
    (kind : token.kind = .integer (some low) (some high)) (bound : token.bind names word = .ok value) :
    IsNumber low high value.text := by
  obtain ⟨number, rfl, atLeast, atMost⟩ := Token.bounds_of_bind kind bound
  obtain ⟨number, rfl⟩ := Int.eq_ofNat_of_zero_le (Int.le_trans (Int.natCast_nonneg low) atLeast)
  exact ⟨number, Int.ofNat_le.mp atLeast, Int.ofNat_le.mp atMost, rfl⟩

theorem admits_of_ne {key : String} (held : key ≠ Lldp.holdTimeKey) (timed : key ≠ Lldp.intervalKey)
    (value : String) : Admits key value :=
  ⟨fun same => absurd same held, fun same => absurd same timed⟩

/-- What the `lldp` command sets is what its grammar lets through. -/
theorem Resolved.valid
    (resolved : session.Resolved negated words exchanges invocation found names)
    (isLldp : found.node = Lldp.configureCommand.leaf) :
    ∀ request ∈ Lldp.requests invocation.arguments, request.Valid := by
  intro request member
  simp only [Lldp.requests, List.mem_append, Option.mem_toList, Option.map_eq_some_iff,
    Option.bind_eq_some_iff] at member
  rcases member with member | ⟨holdTime, given, rfl⟩ | ⟨interval, given, rfl⟩ |
    ⟨advertisement, ⟨word, _, listed⟩, rfl⟩ | ⟨_, _, rfl⟩
  · split at member
    · rw [List.mem_singleton.mp member]
      exact fun value _ => admits_of_ne (by decide) (by decide) value
    · contradiction
  · obtain ⟨group, token, word, option, slot, boundTo⟩ := resolved.token_of_get? given
    rw [isLldp] at option
    cases option
    cases slot
    intro value same
    cases (Option.ite_none_right_eq_some.mp same).2
    exact ⟨fun _ => isNumber_of_bind rfl boundTo, fun other => absurd other (by decide)⟩
  · obtain ⟨group, token, word, option, slot, boundTo⟩ := resolved.token_of_get? given
    rw [isLldp] at option
    cases option
    cases slot
    intro value same
    cases (Option.ite_none_right_eq_some.mp same).2
    exact ⟨fun other => absurd other (by decide), fun _ => isNumber_of_bind rfl boundTo⟩
  · have apart : ∀ advertisement ∈ Lldp.advertisements,
        advertisement.key ≠ Lldp.holdTimeKey ∧ advertisement.key ≠ Lldp.intervalKey := by decide
    obtain ⟨held, timed⟩ := apart advertisement (List.mem_of_find?_eq_some listed)
    exact fun value _ => admits_of_ne held timed value
  · trivial

/-- The command of a line is one of the writers.  Their options depend on no
names, so nothing is asked before the handler runs. -/
theorem Resolved.prepared {command : Command}
    (resolved : session.Resolved negated words exchanges invocation found names)
    (member : command ∈ writers) (same : found.node = command.leaf)
    (yields : Program.Yields (session.prepare line) exchanges (.ok invocation)) :
    session.prepare line = .done (.ok invocation) := by
  have unnamed : fetchNames found.node.options = pure {} := by
    rw [same]
    simp only [writers, List.mem_cons, List.not_mem_nil, or_false] at member
    rcases member with rfl | rfl | rfl | rfl | rfl <;> rfl
  have silent : exchanges = [] := by
    have fetched := resolved.fetched
    rw [unnamed] at fetched
    exact (Query.yields_pure_iff.mp fetched).1
  subst silent
  generalize session.prepare line = program at yields
  cases yields
  rfl

/-- A line only reads, or makes one request that is not about the system row, or
is the `lldp` command of configuration mode. -/
inductive Asks (session : Session) (line : String) : Prop where
  | reads (only : (session.dispatch line).OnlyReads)
  | one {request : Request} (performs : session.Performs line [request]) (valid : request.Valid)
  | lldp {arguments : Arguments}
      (prepared : session.prepare line = .done (.ok { handler := Lldp.configure, arguments }))
      (performs : session.Performs line (Lldp.requests arguments))
      (valid : ∀ request ∈ Lldp.requests arguments, request.Valid)

theorem asks_of_throws (fault : Fault)
    (prepared : session.prepare line = .done (.ok invocation))
    (refuses : (invocation.handler invocation.arguments).run
        { contexts := session.contexts, debug := session.debug } =
      .done (.error fault, { contexts := session.contexts, debug := session.debug })) :
    session.Asks line := by
  refine .reads ?_
  rw [dispatch_eq_andThen, prepared]
  change (session.invoke invocation).OnlyReads
  unfold invoke
  rw [refuses]
  trivial

theorem asks_of_query {request : Request} {last : Action Outcome}
    (prepared : session.prepare line = .done (.ok invocation)) (quiet : Quiet last)
    (runs : (invocation.handler invocation.arguments).run
        { contexts := session.contexts, debug := session.debug } =
      (Action.query request.query >>= fun _ => last).run
        { contexts := session.contexts, debug := session.debug })
    (valid : request.Valid) : session.Asks line := by
  rw [← Request.inTurn_singleton] at runs
  exact .one (performs_of_run prepared quiet runs) valid

theorem Resolved.builtinCommand
    (resolved : session.Resolved negated words exchanges invocation found names)
    (builtin : session.registry = Feature.builtin) :
    ∃ command ∈ builtinCommands, found.node = command.leaf ∧
      invocation.handler = command.handler := by
  have concrete : found.node.isConcrete = true := by
    simp [Node.isConcrete, resolved.handled]
  have looked := builtin ▸ resolved.looked
  have member := Registry.mem_commands_of_lookup builtin_built.wellFormed looked concrete
  obtain ⟨command, present, same⟩ := mem_builtinCommands member
  refine ⟨command, present, same, ?_⟩
  have handled := resolved.handled
  rw [same] at handled
  exact (Option.some.inj handled).symm

/-- What a writer asks for when it runs. -/
theorem asks_of_writer {command : Command}
    (resolved : session.Resolved negated words exchanges invocation found names)
    (member : command ∈ writers) (same : found.node = command.leaf)
    (handled : invocation.handler = command.handler)
    (prepared : session.prepare line = .done (.ok invocation)) : session.Asks line := by
  obtain ⟨handler, arguments⟩ := invocation
  subst handled
  simp only [writers, List.mem_cons, List.not_mem_nil, or_false] at member
  rcases member with rfl | rfl | rfl | rfl | rfl
  · cases bound : arguments.integer? with
    | none =>
        refine asks_of_throws (.refused .internalVlan) prepared ?_
        simp only [Vlan.configureCommand, Vlan.configure, bound]
        rfl
    | some id =>
        exact asks_of_query prepared (quiet_enter _)
          (congrArg (Action.run · _) (Vlan.configure_eq bound)) (resolved.vlan_bounds same bound)
  · cases selected : (session.contexts.object? vlanMode).bind Value.integer? with
    | none =>
        refine asks_of_throws (.refused .noVlanSelected) prepared ?_
        simp only [Vlan.shutdownCommand, Vlan.shutdown, run_get_bind, selected]
        rfl
    | some id => exact asks_of_query prepared quiet_proceed (Vlan.run_shutdown selected) trivial
  · cases selected : session.contexts.object? interfaceMode with
    | none => exact asks_of_throws _ prepared (run_objectOf_bind_of_none selected)
    | some object => exact asks_of_query prepared quiet_proceed (Interface.run_shutdown selected) trivial
  · refine .lldp prepared (performs_of_run prepared quiet_proceed ?_) (resolved.valid same)
    exact congrArg (Action.run · _)
      (Lldp.configure_eq fun word given => resolved.advertisement same given)
  · cases selected : session.contexts.object? interfaceMode with
    | none => exact asks_of_throws _ prepared (run_objectOf_bind_of_none selected)
    | some object => exact asks_of_query prepared quiet_proceed (Lldp.run_configureInterface selected) trivial

theorem asks_of_builtin (builtin : session.registry = Feature.builtin) (line : String) :
    session.Asks line := by
  by_cases writes : ∃ exchanges negated words invocation found names, ∃ command ∈ writers,
      Program.Yields (session.prepare line) exchanges (.ok invocation) ∧
        session.Resolved negated words exchanges invocation found names ∧
        found.node = command.leaf ∧ invocation.handler = command.handler
  · obtain ⟨exchanges, negated, words, invocation, found, names, command, member, yields, resolved,
      same, handled⟩ := writes
    exact asks_of_writer resolved member same handled (resolved.prepared member same yields)
  · refine .reads ?_
    rw [dispatch_eq_andThen]
    refine onlyReads_prepare.andThen_of_yields fun exchanges prepared yields => ?_
    rcases resolved_of_yields_prepare yields with
      ⟨_, rfl, _⟩ | ⟨negated, words, invocation, found, names, rfl, resolved⟩
    · trivial
    · obtain ⟨command, member, same, handled⟩ := resolved.builtinCommand builtin
      rcases onlyReads_or_writer member with reads | writer
      · exact onlyReads_invoke (handled ▸ reads)
      · exact absurd ⟨exchanges, negated, words, invocation, found, names, command, writer, yields,
          resolved, same, handled⟩ writes

end Session

end SwitchShell
