import SwitchShell.Proofs.Feature.Counters
import SwitchShell.Proofs.Session.Settings

namespace SwitchShell.Session

open Feature Lldp

variable {session : Session} {memory : Memory} {line : String} {words : List String}
  {negated : Bool} {row : Row}

/-- A line of configuration mode that asks to clear something, perhaps beside settings,
makes the settings and raises the counter for it by one, where a text that is no number
of 64 bits counts as zero.  The rest of the status stays as it was, and in the other
columns nothing changes but the settings that the line asks for.  If the number that is
stored is the largest of 64 bits, the program breaks off at it when the settings are
made, and the whole status stays as it was. -/
theorem clearing_of_line (builtin : session.registry = Feature.builtin)
    (config : session.mode = configMode) (orders : Orders negated words line)
    (single : memory.rows systemTable = [row]) :
    (¬ Failed (Program.run Memory.transact (session.dispatch line) memory).1.1 →
      ∃ phrases, Spells words phrases) ∧
    ∀ phrases, Spells words phrases → ∀ phrase ∈ phrases, ∀ what, phrase.wish = .clear what →
      ∃ settled, Settles negated phrases row settled ∧
        (countOf (counterOf what) row ≠ Text.maxUnsigned64 → ∃ after later,
          Program.run Memory.transact (session.dispatch line) memory = (({}, session), after) ∧
          Memory.Replaces systemTable [later] memory after ∧
          Advances (counterOf what) row later ∧
          ∀ column, column ≠ "status" →
            Dictionary.find? column later = Dictionary.find? column settled) ∧
        (countOf (counterOf what) row = Text.maxUnsigned64 → ∃ after,
          Program.run Memory.transact (session.dispatch line) memory =
            (({ crash := some .overflow }, session), after) ∧
          Memory.Replaces systemTable [settled] memory after ∧
          Dictionary.find? "status" settled = Dictionary.find? "status" row) := by
  refine ⟨orders.exists_phrases builtin config, fun phrases spells phrase member what same => ?_⟩
  let settled := settle (changes (argumentsOf negated phrases)) row
  have status : Dictionary.find? "status" settled = Dictionary.find? "status" row :=
    find?_settle (by decide)
  have count : countOf (counterOf what) settled = countOf (counterOf what) row :=
    countOf_of_status status
  obtain ⟨middle, kept, answered⟩ :=
    @Spells.answer_requests _ _ _ _ _ _ negated spells member same single
  refine ⟨settled, spells.settles row, fun notLast => ?_, fun last => ?_⟩
  · have below : countOf (counterOf what) settled < Text.maxUnsigned64 :=
      countOf_le.lt_of_ne (count ▸ notLast)
    obtain ⟨after, cleared, replaced⟩ := answer_requestClear kept.rows below
    exact ⟨after, _, orders.run_eq builtin config spells (answered.trans cleared),
      kept.trans replaced, (advances_advance below).of_status status,
      fun _ other => find?_advance other⟩
  · obtain ⟨after, broken, replaced⟩ :=
      answer_requestClear_of_last kept.rows (count.trans last)
    exact ⟨after, orders.run_eq builtin config spells (answered.trans broken),
      kept.trans replaced, status⟩

/-- Two counters with texts that are read as numbers in ways of their own, and a line that
switches LLDP on besides. -/
theorem neighbors_cleared :
    let session := inside configStack
    let row : Row := [("status", Row.encodeMap [
      ("lldp_num_clear_counters_requested", "many"),
      ("lldp_num_clear_table_requested", "+0018446744073709551614")])]
    let memory : Memory := { tables := [(systemTable, [row])] }
    ∃ phrases,
      session.registry = Feature.builtin ∧ session.mode = configMode ∧
      Orders false ["en", "cl", "n"] "ll en cl n" ∧ memory.rows systemTable = [row] ∧
      Spells ["en", "cl", "n"] phrases ∧
      (∃ phrase ∈ phrases, phrase.wish = .clear "neighbors") ∧
      ∃ after later,
        Program.run Memory.transact (session.dispatch "ll en cl n") memory = (({}, session), after) ∧
        Memory.Replaces systemTable [later] memory after ∧
        countOf "lldp_num_clear_table_requested" row = 18446744073709551614 ∧
        countOf "lldp_num_clear_table_requested" later = 18446744073709551615 ∧
        Dictionary.find? "lldp_num_clear_counters_requested" (later.mapAt "status") = some "many" := by
  intro session row memory
  let enable : Phrase := { wish := .enable, words := ["en"], typed := .enable (by decide) }
  let clear : Phrase :=
    { wish := .clear "neighbors", words := ["cl", "n"]
      typed := .clear (by decide) (.inr rfl) (by decide) }
  have orders : Orders false ["en", "cl", "n"] "ll en cl n" := ⟨"ll", by decide, by decide⟩
  have spells : Spells ["en", "cl", "n"] [enable, clear] := ⟨by decide, rfl⟩
  have member : clear ∈ [enable, clear] := by simp
  obtain ⟨_, _, advancing, _⟩ :=
    (@clearing_of_line session memory _ _ _ row rfl rfl orders rfl).2 _ spells clear member _ rfl
  obtain ⟨after, later, ran, replaced, advances, _⟩ := advancing (by decide)
  have stored : countOf "lldp_num_clear_table_requested" row = 18446744073709551614 := by decide
  refine ⟨_, rfl, rfl, orders, rfl, spells, ⟨clear, member, rfl⟩, after, later, ran, replaced,
    stored, ?_, advances.others "lldp_num_clear_counters_requested" (by decide)⟩
  exact advances.next.trans (congrArg (· + 1) stored)

/-- At the largest number the program breaks off, and the counter stays at it. -/
theorem last_count_cleared :
    let session := inside configStack
    let row : Row := [("status", Row.encodeMap [
      ("lldp_num_clear_counters_requested", "18446744073709551615")])]
    let ran := Program.run Memory.transact (session.dispatch "lldp clear counters")
      { tables := [(systemTable, [row])] }
    ¬ Failed ran.1.1 ∧ ran.1.1.crash = some .overflow ∧
      countOf "lldp_num_clear_counters_requested" row = 18446744073709551615 ∧
      ∃ later, ran.2.rows systemTable = [later] ∧
        countOf "lldp_num_clear_counters_requested" later ≠
          countOf "lldp_num_clear_counters_requested" row + 1 ∧
        Dictionary.find? "lldp_num_clear_counters_requested" (later.mapAt "status") =
          some "18446744073709551615" := by
  intro session row ran
  have shown : ran.1.1 = { crash := some .overflow } := by decide +kernel
  refine ⟨?_, ?_, by decide +kernel, _, rfl, by decide +kernel, by decide +kernel⟩
  · rintro ⟨message, impossible⟩
    rw [shown] at impossible
    contradiction
  · rw [shown]

end SwitchShell.Session
