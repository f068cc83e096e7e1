import SwitchShell.Proofs.Feature.Failure
import SwitchShell.Proofs.Grammar.Blame
import SwitchShell.Proofs.Session.Modes
import SwitchShell.Proofs.Session.Requests

namespace SwitchShell

variable {words : List String} {fault : Fault}

/-- The words are parts of one line. -/
def InLine (words : List String) : Prop :=
  ∀ word ∈ words, '\n' ∉ word.toList

theorem inLine_words (line : String) : InLine (Text.words line) := fun _ member =>
  Text.notMem_of_mem_words member (by decide)

theorem Fault.Blames.isLine (blames : fault.Blames words) (inLine : InLine words) :
    fault.IsLine := by
  cases blames with
  | ambiguous | optionRequired | superfluous | outOfRange => decide
  | @badOption word member =>
      have text : (Fault.badOption word).message = "% Invalid option " ++ word ++ "." := rfl
      rw [Fault.IsLine, text]
      simp only [String.toList_append, List.mem_append, not_or]
      exact ⟨⟨by decide, inLine word member⟩, by decide⟩
  | @invalidValue word member =>
      have text : (Fault.invalidValue word).message = "% Invalid value " ++ word ++ "." := rfl
      rw [Fault.IsLine, text]
      simp only [String.toList_append, List.mem_append, not_or]
      exact ⟨⟨by decide, inLine word member⟩, by decide⟩

/-- The ways in which a line can fail before a handler runs, but for those of the
database. -/
inductive Fault.Rejects (words : List String) : Fault → Prop where
  | noSuchCommand : Rejects words .noSuchCommand
  | incompleteCommand : Rejects words .incompleteCommand
  | noHelpAvailable : Rejects words .noHelpAvailable
  | ofBlames {fault : Fault} (blames : fault.Blames words) : Rejects words fault

theorem Fault.Rejects.isLine (rejects : fault.Rejects words) (inLine : InLine words) :
    fault.IsLine := by
  cases rejects with
  | ofBlames blames => exact blames.isLine inLine
  | noSuchCommand | incompleteCommand | noHelpAvailable => decide

theorem Fault.Rejects.mono {parts : List String} (rejects : fault.Rejects parts)
    (sub : ∀ word ∈ parts, word ∈ words) : fault.Rejects words := by
  cases rejects with
  | ofBlames blames => exact .ofBlames (blames.mono sub)
  | noSuchCommand => exact .noSuchCommand
  | incompleteCommand => exact .incompleteCommand
  | noHelpAvailable => exact .noHelpAvailable

theorem Registry.rejects_of_lookup {registry : Registry} {mode : String} {asked : List String}
    (failed : registry.lookup mode asked = .error fault) : fault.Rejects words := by
  unfold lookup at failed
  split at failed
  · cases failed
    exact .noSuchCommand
  · contradiction
  · cases failed
    exact .ofBlames .ambiguous

/-- The dispatch shows one error, which is its last output and a single line, and
lets the session go on. -/
def Dispatch.EndsInError (dispatch : Dispatch) : Prop :=
  ∃ reports text, dispatch.output = reports ++ [.error text] ∧
    (∀ output ∈ reports, output.IsReport) ∧ (Output.error text).render.length = 1 ∧
    dispatch.terminate = false

theorem Dispatch.isFatal_eq_false_of_shown {output : List Output} {text : String}
    (shown : .error text ∈ (Dispatch.failed output fault).output) : fault.isFatal = false := by
  unfold Dispatch.failed at shown
  split at shown
  · contradiction
  · exact Bool.eq_false_iff.mpr ‹_›

theorem Dispatch.endsInError_failed {reports : List Output} {text : String}
    (allReports : ∀ output ∈ reports, output.IsReport) (isLine : fault.IsLine)
    (shown : .error text ∈ (Dispatch.failed reports fault).output) :
    (Dispatch.failed reports fault).EndsInError := by
  rw [Dispatch.failed_eq reports (isFatal_eq_false_of_shown shown)]
  exact ⟨reports, fault.message, rfl, allReports, by rw [isLine.render]; rfl, rfl⟩

namespace Session

open Feature

variable {session after : Session} {line text : String} {negated : Bool}
  {exchanges : List Exchange} {dispatch : Dispatch} {invocation : Invocation} {found : Match}
  {names : Names} {kind : Fault → Prop}

theorem rejects_of_bind (failed : bind found words negated names = .error fault) :
    fault.Rejects words := by
  refine faultIn_bind (fun _ unbound => ?_) (.ofBlames .optionRequired) .noSuchCommand fault failed
  exact .ofBlames ((Binding.blames_of_ofWords unbound).mono fun word => List.mem_of_mem_drop)

theorem failsWith_fetchNames (options : List OptionGroup) :
    (fetchNames options).FailsWith kind := by
  unfold fetchNames
  split
  · exact Query.failsWith_pure _
  · exact Query.failsWith_names _

theorem failsWith_resolve {registry : Registry} {mode : String}
    (rejected : ∀ fault : Fault, fault.Rejects words → kind fault) :
    (resolve registry mode negated words).FailsWith kind := by
  have searches : FaultIn kind (registry.lookup mode words) := fun fault failed =>
    rejected fault (Registry.rejects_of_lookup failed)
  refine (Query.failsWith_of searches).bind fun found => ?_
  split
  · exact Query.failsWith_throw (rejected _ .incompleteCommand)
  · refine (failsWith_fetchNames _).bind fun names => ?_
    have binds : FaultIn kind (bind found words negated names) := fun fault failed =>
      rejected fault (rejects_of_bind failed)
    exact (Query.failsWith_of binds).map _

/-- The word of the `debug` command is a key. -/
theorem Resolved.debugKey {word : String}
    (resolved : session.Resolved negated words exchanges invocation found names)
    (isDebug : found.node = Debug.setCommand.leaf)
    (given : invocation.arguments.first?.bind Value.word? = some word) :
    (DebugKey.ofText? word).isSome := by
  obtain ⟨value, first, isWord⟩ := Option.bind_eq_some_iff.mp given
  obtain ⟨binding, bound, rfl⟩ := List.mem_map.mp (List.mem_of_mem_head? first)
  obtain ⟨group, token, spoken, option, slot, _, boundTo⟩ := resolved.byToken binding bound
  rw [isDebug] at option
  obtain rfl := List.mem_singleton.mp (List.mem_of_getElem? option)
  obtain rfl := List.mem_singleton.mp (List.mem_of_getElem? slot)
  obtain ⟨literal, member, same⟩ := Token.choice_of_bind rfl boundTo
  rw [same] at isWord
  cases isWord
  simp only [List.map_cons, List.map_nil, List.mem_cons, List.not_mem_nil, or_false] at member
  rcases member with rfl | rfl <;> rfl

/-- Every handler that a line can lead to. -/
theorem Resolved.failsCleanly
    (resolved : session.Resolved negated words exchanges invocation found names)
    (builtin : session.registry = Feature.builtin) :
    (invocation.handler invocation.arguments).FailsCleanly := by
  obtain ⟨command, member, same, handled⟩ := resolved.builtinCommand builtin
  rw [handled]
  simp only [builtinCommands, globalCommands, showCommands, Shell.globalCommands,
    Shell.rootCommands, List.drop_succ_cons, List.drop_zero, List.take_succ_cons, List.take_zero,
    List.cons_append, List.nil_append, List.mem_cons, List.not_mem_nil, or_false] at member
  rcases member with rfl | rfl | rfl | rfl | rfl | rfl | rfl | rfl | rfl | rfl | rfl | rfl | rfl |
    rfl | rfl | rfl | rfl
  · exact Vlan.configure_failsCleanly _
  · exact Interface.configure_failsCleanly _
  · exact (Lldp.configure_tidy _ fun _ given => resolved.advertisement same given).failsCleanly
  · exact (Shell.showVersion_tidy _).failsCleanly
  · exact (Shell.showRunningConfig_tidy invocation.arguments).failsCleanly
  · exact (Debug.showDebug_tidy invocation.arguments).failsCleanly
  · exact (Vlan.showVlan_tidy _).failsCleanly
  · exact (Interface.showInterface_tidy _).failsCleanly
  · exact (Lldp.showLldp_tidy _).failsCleanly
  · exact (Action.tidy_pure _).failsCleanly
  · exact (Shell.showContexts_tidy invocation.arguments).failsCleanly
  · exact Debug.setDebug_failsCleanly _ fun _ given => resolved.debugKey same given
  · exact (Interface.shutdown_tidy _).failsCleanly
  · exact (Lldp.configureInterface_tidy _).failsCleanly
  · exact (Action.tidy_pure _).failsCleanly
  · exact Shell.configure_failsCleanly invocation.arguments
  · exact (Vlan.shutdown_tidy _).failsCleanly

theorem report_of_describe {output : List Output}
    (described : session.help words = .ok output) : ∀ item ∈ output, item.IsReport := by
  unfold help Help.describe at described
  extract_lets asked at described
  split at described
  · cases described
    exact List.forall_mem_singleton.mpr fun _ => by simp [Help.listing]
  · split at described
    · cases described
      unfold Help.describeNode
      extract_lets below
      intro item member
      rcases List.mem_append.mp member with text | list
      · split at text
        · simp only [List.mem_cons, List.not_mem_nil, or_false] at text
          rcases text with rfl | rfl <;> exact report_info _
        · split at text
          · contradiction
          · rw [List.mem_singleton.mp text]
            exact report_info _
      · split at list
        · contradiction
        · rw [List.mem_singleton.mp list]
          exact fun _ => by simp
    · contradiction
    · contradiction

theorem rejects_of_help (failed : session.help words = .error fault) : fault.Rejects words := by
  unfold help Help.describe at failed
  extract_lets asked at failed
  split at failed
  · contradiction
  · split at failed
    · contradiction
    · cases failed
      exact .noHelpAvailable
    · rename_i unknown
      cases failed
      exact Registry.rejects_of_lookup unknown

theorem ofFault_of_prepareWords {negated : Bool}
    (yields : Program.Yields (session.prepareWords negated words) exchanges (.error dispatch))
    (each : ∀ exchange ∈ exchanges, FaultIn kind exchange.answer)
    (rejected : ∀ fault : Fault, fault.Rejects words → kind fault) :
    ∃ fault, kind fault ∧ dispatch = Dispatch.ofFault fault := by
  obtain ⟨first, rest, result, rfl, resolved, ended⟩ := Program.yields_andThen_iff.mp yields
  obtain ⟨rfl, same⟩ := Program.yields_done_iff.mp ended
  cases result with
  | ok invocation => contradiction
  | error fault =>
      cases same
      rw [List.append_nil] at each
      exact ⟨fault, (failsWith_resolve rejected).of_yields resolved each fault rfl, rfl⟩

/-- A line that does not get as far as a handler shows an error only if that is all. -/
theorem ofFault_of_prepare
    (yields : Program.Yields (session.prepare line) exchanges (.error dispatch))
    (each : ∀ exchange ∈ exchanges, FaultIn kind exchange.answer)
    (rejected : ∀ fault : Fault, fault.Rejects (Text.words line) → kind fault)
    (shown : .error text ∈ dispatch.output) :
    ∃ fault, kind fault ∧ dispatch = Dispatch.ofFault fault := by
  unfold prepare at yields
  split at yields
  · obtain ⟨_, same⟩ := Program.yields_done_iff.mp yields
    cases same
    contradiction
  · rename_i words split
    obtain ⟨_, same⟩ := Program.yields_done_iff.mp yields
    cases same
    unfold explain at shown ⊢
    split at shown
    · rename_i output described
      exact absurd rfl (report_of_describe described _ shown text)
    · rename_i fault failed
      refine ⟨fault, rejected fault ((rejects_of_help failed).mono ?_), rfl⟩
      exact fun word member => split ▸ List.mem_cons_of_mem _ member
  · rename_i words split
    refine ofFault_of_prepareWords yields each fun fault rejects => rejected fault ?_
    exact rejects.mono fun word member => split ▸ List.mem_cons_of_mem _ member
  · exact ofFault_of_prepareWords yields each rejected

theorem endsInError_of_prepare
    (yields : Program.Yields (session.prepare line) exchanges (.error dispatch))
    (inLine : ∀ exchange ∈ exchanges, exchange.FailsInLine)
    (shown : .error text ∈ dispatch.output) : dispatch.EndsInError := by
  obtain ⟨fault, isLine, rfl⟩ := ofFault_of_prepare yields inLine
    (fun fault rejects => rejects.isLine (inLine_words line)) shown
  exact Dispatch.endsInError_failed (List.forall_mem_nil _) isLine shown

/-- A line that shows an error shows it last, once and in a single line, whatever
the database answers as long as its errors are single lines.  The session goes
on as it was before; and if no handler ran, the database was only read. -/
theorem session_of_failed (builtin : session.registry = Feature.builtin)
    (yields : Program.Yields (session.dispatch line) exchanges (dispatch, after))
    (inLine : ∀ exchange ∈ exchanges, exchange.FailsInLine)
    (shown : .error text ∈ dispatch.output) :
    dispatch.EndsInError ∧ after.contexts = session.contexts ∧ after.debug = session.debug ∧
      after.hostname = session.hostname ∧
      ((∃ refusal, Program.Yields (session.prepare line) exchanges (.error refusal)) →
        ∀ exchange ∈ exchanges, exchange.IsRead) := by
  have onlyRead : (∃ refusal, Program.Yields (session.prepare line) exchanges (.error refusal)) →
      ∀ exchange ∈ exchanges, exchange.IsRead := fun ⟨_, refused⟩ => onlyReads_prepare.isRead refused
  rw [dispatch_eq_andThen] at yields
  obtain ⟨first, rest, prepared, rfl, begun, ended⟩ := Program.yields_andThen_iff.mp yields
  have before : ∀ exchange ∈ first, exchange.FailsInLine := fun exchange member =>
    inLine exchange (List.mem_append_left _ member)
  have during : ∀ exchange ∈ rest, exchange.FailsInLine := fun exchange member =>
    inLine exchange (List.mem_append_right _ member)
  rcases resolved_of_yields_prepare begun with
    ⟨refusal, rfl, _⟩ | ⟨negated, words, invocation, found, names, rfl, resolved⟩
  · obtain ⟨_, same⟩ := Program.yields_done_iff.mp ended
    cases same
    exact ⟨endsInError_of_prepare begun before shown, rfl, rfl, rfl, onlyRead⟩
  · obtain ⟨handled, nothing, ⟨result, workspace⟩, rfl, ran, concluded⟩ :=
      Program.yields_andThen_iff.mp ended
    obtain ⟨rfl, same⟩ := Program.yields_done_iff.mp concluded
    obtain ⟨⟨reports, output, allReports⟩, isLine, alike⟩ :=
      resolved.failsCleanly builtin _ _ _ _ ran
    rw [List.nil_append] at output
    have noError : .error text ∉ workspace.output := fun inside =>
      allReports _ (output ▸ inside) text rfl
    cases result with
    | ok outcome =>
        cases outcome <;> cases same <;> exact absurd shown noError
    | error fault =>
        cases same
        obtain ⟨contexts, debug⟩ := alike fault rfl
        rw [List.append_nil] at during
        subst output
        exact ⟨Dispatch.endsInError_failed allReports (isLine during fault rfl) shown, contexts,
          debug, rfl, onlyRead⟩

/-- The settings are read and shown, and then cannot be read once more. -/
def brokenOff : List Exchange := [
  { operations := [.select interfaceTable [] (some ["name"])]
    answer := .ok [{ rows := [] }] },
  { operations := [.select systemTable [] (some ["other_config"])]
    answer := .ok [{ rows := [] }] },
  { operations := [.select systemTable [] (some ["other_config"])]
    answer := .error (.database .refused) }]

def brokenOffDispatch : Dispatch :=
  { output := [
      .info "LLDP global configuration:",
      .pairs [("Enabled", "No"), ("Hold time", "4"), ("Transmit interval", "30")],
      .info "",
      .error "% Database error: connection refused"] }

theorem brokenOff_endsInError :
    Program.Yields (vlanSession.dispatch "show lldp configuration") brokenOff
        (brokenOffDispatch, vlanSession) ∧
      brokenOffDispatch.EndsInError := by
  have yields : Program.Yields (vlanSession.dispatch "show lldp configuration") brokenOff
      (brokenOffDispatch, vlanSession) :=
    .transact _ (.transact _ (.transact _ (.done _)))
  have inLine : ∀ exchange ∈ brokenOff, exchange.FailsInLine := by
    intro exchange member fault failed
    simp only [brokenOff, List.mem_cons, List.not_mem_nil, or_false] at member
    rcases member with rfl | rfl | rfl <;> cases failed
    decide
  have shown : .error "% Database error: connection refused" ∈ brokenOffDispatch.output := by
    simp [brokenOffDispatch]
  obtain ⟨ends, _⟩ := session_of_failed rfl yields inLine shown
  exact ⟨yields, ends⟩

end Session

end SwitchShell
