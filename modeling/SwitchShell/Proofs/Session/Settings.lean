import Mathlib.Data.List.Infix
import SwitchShell.Proofs.Feature.Settings
import SwitchShell.Proofs.Session.Atomicity
import SwitchShell.Proofs.Session.Restoring
import SwitchShell.Proofs.Store.Select

namespace SwitchShell

namespace Session

open Feature Lldp

variable {session : Session} {memory : Memory} {line word : String} {words : List String}
  {negated : Bool} {phrases : List Phrase} {row : Row}

/-- The line is the `lldp` command and then the words, perhaps after a `no`. -/
def Orders (negated : Bool) (words : List String) (line : String) : Prop :=
  ∃ word, abbreviates word "lldp" = true ∧
    Text.words line = if negated then "no" :: word :: words else word :: words

theorem spelled_lldp (begins : abbreviates word "lldp" = true) :
    word = "l" ∨ word = "ll" ∨ word = "lld" ∨ word = "lldp" := by
  obtain ⟨some, begun⟩ := abbreviates_iff.mp begins
  have initial : word ∈ "lldp".toList.inits.map String.ofList := by
    rw [← @String.ofList_toList word]
    exact List.mem_map_of_mem ((List.mem_inits _ _).mpr begun)
  have inits : "lldp".toList.inits.map String.ofList = ["", "l", "ll", "lld", "lldp"] := by decide
  rw [inits] at initial
  simpa only [List.mem_cons, List.not_mem_nil, some, false_or, or_false] using initial

/-- The `lldp` command of a mode. -/
inductive LldpCommand : String → Command → Prop where
  | config : LldpCommand configMode configureCommand
  | interface : LldpCommand interfaceMode interfaceCommand

theorem LldpCommand.lookup {mode : String} {command : Command} (known : LldpCommand mode command)
    (begins : abbreviates word "lldp" = true) (words : List String) :
    Feature.builtin.lookup mode (word :: words) = .ok ⟨command.leaf, 1⟩ := by
  -- Each spelling is looked up as it is; the command has no words below it.
  cases known <;> rcases spelled_lldp begins with rfl | rfl | rfl | rfl <;> cases words <;> rfl

theorem Orders.prepare_eq_prepareWords (orders : Orders negated words line) :
    ∃ word, abbreviates word "lldp" = true ∧
      session.prepare line = session.prepareWords negated (word :: words) := by
  obtain ⟨word, begins, spelled⟩ := orders
  refine ⟨word, begins, ?_⟩
  have plain : word ≠ "no" := by
    rintro rfl
    contradiction
  have unexplained : word ≠ "help" := by
    rintro rfl
    contradiction
  rw [prepare, spelled]
  cases negated with
  | true => rfl
  | false => simp [plain, unexplained]

/-- The words after the name decide whether the command runs, and on what. -/
theorem Orders.prepare_eq (orders : Orders negated words line)
    (builtin : session.registry = Feature.builtin) (config : session.mode = configMode) :
    session.prepare line = .done (((Binding.ofWords {} configureCommand.options words).map
      fun bindings => { handler := configure, arguments := { bindings, negated } }).mapError
        Dispatch.ofFault) := by
  obtain ⟨word, begins, prepared⟩ := @prepare_eq_prepareWords session _ _ _ orders
  have looked : session.registry.lookup session.mode (word :: words) =
      .ok ⟨configureCommand.leaf, 1⟩ := by
    rw [builtin, config]
    exact LldpCommand.config.lookup begins words
  have bound : bind ⟨configureCommand.leaf, 1⟩ (word :: words) negated {} =
      (Binding.ofWords {} configureCommand.options words).map fun bindings =>
        { bindings, negated } :=
    bind_of_optional (fun _ => rfl) rfl
  rw [prepared, prepareWords_eq looked rfl rfl, bound]
  cases Binding.ofWords {} configureCommand.options words <;> rfl

/-- The words of a line that does not fail are groups for different options. -/
theorem Orders.exists_phrases (orders : Orders negated words line)
    (builtin : session.registry = Feature.builtin) (config : session.mode = configMode)
    (fine : ¬ Failed (Program.run Memory.transact (session.dispatch line) memory).1.1) :
    ∃ phrases, Spells words phrases := by
  have prepared := orders.prepare_eq builtin config
  cases bound : Binding.ofWords {} configureCommand.options words with
  | ok bindings =>
      obtain ⟨phrases, spells, _⟩ := Lldp.exists_phrases bound
      exact ⟨phrases, spells⟩
  | error fault =>
      rw [bound] at prepared
      exact absurd (failed_of_prepare prepared
        (Binding.told_ofWords {} words (by decide) fault bound)) fine

theorem Orders.prepare_of_spells (orders : Orders negated words line)
    (builtin : session.registry = Feature.builtin) (config : session.mode = configMode)
    (spells : Spells words phrases) :
    session.prepare line =
      .done (.ok { handler := configure, arguments := argumentsOf negated phrases }) := by
  rw [orders.prepare_eq builtin config, spells.ofWords_eq]
  rfl

theorem Orders.run_eq (orders : Orders negated words line)
    (builtin : session.registry = Feature.builtin) (config : session.mode = configMode)
    (spells : Spells words phrases) {result : Except Fault Unit} {after : Memory}
    (answered : Query.answer Memory.transact
      (Request.inTurn (requests (argumentsOf negated phrases))) memory = (result, after)) :
    Program.run Memory.transact (session.dispatch line) memory =
      ((.ofResult result, session), after) := by
  have handled : Program.run Memory.transact ((configure (argumentsOf negated phrases)).run
      { contexts := session.contexts, debug := session.debug }) memory =
        ((result.map fun _ => .proceed, { contexts := session.contexts, debug := session.debug }),
          after) := by
    rw [spells.configure_eq]
    cases result with
    | ok value =>
        rw [Action.run_query_bind answered]
        rfl
    | error fault => exact Action.run_query_bind_of_error answered _ _
  rw [run_of_handled (orders.prepare_of_spells builtin config spells) handled]
  cases result <;> rfl

/-- An `lldp` line that is accepted is groups of words for different options.  Unless
one of them asks to clear something, the line changes the settings that the groups
ask for and nothing else, and the order of the groups does not matter. -/
theorem settings_of_line (builtin : session.registry = Feature.builtin)
    (config : session.mode = configMode) (orders : Orders negated words line)
    (single : memory.rows systemTable = [row]) :
    (¬ Failed (Program.run Memory.transact (session.dispatch line) memory).1.1 →
      ∃ phrases, Spells words phrases) ∧
    ∀ phrases, Spells words phrases →
      (∀ phrase ∈ phrases, ∀ what, phrase.wish ≠ .clear what) →
      ∃ after later,
        Program.run Memory.transact (session.dispatch line) memory = (({}, session), after) ∧
        after.serial = memory.serial ∧
        (∀ table, table ≠ systemTable →
          Dictionary.find? table after.tables = Dictionary.find? table memory.tables) ∧
        after.rows systemTable = [later] ∧
        Settles negated phrases row later ∧
        ∀ (reordered : List Phrase) other, reordered.Perm phrases →
          Orders negated (reordered.flatMap Phrase.words) other →
          Program.run Memory.transact (session.dispatch other) memory =
            (({}, session), after) := by
  refine ⟨orders.exists_phrases builtin config, fun phrases spells uncleared => ?_⟩
  have found : Dictionary.find? systemTable memory.tables = some [row] := by
    rw [← single]
    exact Memory.find?_of_rows (single ▸ List.cons_ne_nil _ _)
  obtain ⟨after, answered, revised⟩ := revised_settings (Option.isSome_of_eq_some found)
    (changes (argumentsOf negated phrases))
  rw [← requests_eq (spells.word?_clear_eq_none uncleared)] at answered
  have rows : after.rows systemTable = [settle (changes (argumentsOf negated phrases)) row] := by
    rw [Memory.rows, revised.rows, found]
    rfl
  refine ⟨after, _, orders.run_eq builtin config spells answered, revised.serial,
    revised.elsewhere, rows, spells.settles row, fun reordered other same orders' => ?_⟩
  have spells' : Spells (reordered.flatMap Phrase.words) reordered :=
    ⟨(same.map _).nodup_iff.mpr spells.different, rfl⟩
  have answered' : Query.answer Memory.transact
      (Request.inTurn (requests (argumentsOf negated reordered))) memory = (.ok (), after) := by
    rw [spells.requests_of_perm spells' same, answered]
  exact orders'.run_eq builtin config spells' answered'

/-- An abbreviated line with three groups, in a new session and in a new database. -/
theorem abbreviated_line_settles :
    let session := inside configStack
    let line := "ll timer 030 select-tlv system-n en"
    let words := ["timer", "030", "select-tlv", "system-n", "en"]
    ∃ phrases row,
      session.registry = Feature.builtin ∧ session.mode = configMode ∧
      Orders false words line ∧ Memory.initial.rows systemTable = [row] ∧ Spells words phrases ∧
      (∀ phrase ∈ phrases, ∀ what, phrase.wish ≠ .clear what) ∧
      ∃ after later,
        Program.run Memory.transact (session.dispatch line) Memory.initial =
          (({}, session), after) ∧
        after.rows systemTable = [later] ∧ Settles false phrases row later ∧
        Dictionary.find? "lldp_tx_interval" (later.mapAt "other_config") = some "30" := by
  intro session line words
  let interval : Phrase :=
    { wish := .interval 30, words := ["timer", "030"]
      typed := .interval (by decide) (by decide) (by decide) (by decide) }
  let select : Phrase :=
    { wish := .advertise ⟨"system-name", "lldp_tlv_sys_name_enable", "System name"⟩
      words := ["select-tlv", "system-n"]
      typed := .advertise (by decide) (by decide) (by decide) (by decide) }
  let enable : Phrase := { wish := .enable, words := ["en"], typed := .enable (by decide) }
  have orders : Orders false words line := ⟨"ll", by decide, by decide⟩
  have spells : Spells words [interval, select, enable] := ⟨by decide, rfl⟩
  have uncleared : ∀ phrase ∈ [interval, select, enable], ∀ what, phrase.wish ≠ .clear what := by
    intro phrase member what
    simp only [List.mem_cons, List.not_mem_nil, or_false] at member
    rcases member with rfl | rfl | rfl <;> exact Wish.noConfusion
  obtain ⟨row, single⟩ : ∃ row, Memory.initial.rows systemTable = [row] := ⟨_, rfl⟩
  obtain ⟨after, later, ran, _, _, rows, settles, _⟩ :=
    (@settings_of_line session _ _ _ _ _ rfl rfl orders single).2 _ spells uncleared
  refine ⟨_, row, rfl, rfl, orders, single, spells, uncleared, after, later, ran, rows, settles, ?_⟩
  exact settles.changed interval List.mem_cons_self _ _ rfl

end Session

end SwitchShell
