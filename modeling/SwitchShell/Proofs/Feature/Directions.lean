import SwitchShell.Proofs.Feature.Change
import SwitchShell.Proofs.Grammar.Bound
import SwitchShell.Proofs.Store.SingleRow

namespace SwitchShell.Feature.Lldp

/-- One of the directions of an interface. -/
inductive Way where
  | reception
  | transmission
deriving DecidableEq, Repr

namespace Way

def word : Way → String
  | reception => "reception"
  | transmission => "transmission"

/-- The token of the way among those of the command. -/
def slot : Way → Nat
  | reception => 0
  | transmission => 1

def of : Way → Direction → Bool
  | reception, direction => direction.receive
  | transmission, direction => direction.transmit

end Way

variable {arguments : Arguments} {words : List String} {bindings : List Binding}
  {negated : Bool} {workspace : Workspace} {object : Value} {memory : Memory}
  {above below : List Row} {row later : Row} {way : Way}

/-- One of the words is the way or an abbreviation of it. -/
def Mentions (words : List String) (way : Way) : Prop :=
  ∃ word ∈ words, abbreviates word way.word = true

theorem of_after (old : Direction) :
    way.of (old.after arguments) =
      if arguments.has 0 way.slot then !arguments.negated else way.of old := by
  cases way <;> rfl

/-- Each token of the command is that of a way. -/
theorem exists_way {option slot : Nat} {group : OptionGroup} {token : Token}
    (grouped : interfaceCommand.options[option]? = some group)
    (held : group.tokens[slot]? = some token) :
    option = 0 ∧ ∃ way : Way, slot = way.slot ∧
      ∀ names word, token.accepts names word = abbreviates word way.word := by
  rcases option with _ | option
  · cases grouped
    rcases slot with _ | _ | slot
    · cases held
      exact ⟨rfl, .reception, rfl, fun _ _ => rfl⟩
    · cases held
      exact ⟨rfl, .transmission, rfl, fun _ _ => rfl⟩
    · contradiction
  · contradiction

theorem slot_iff_of_fits {word : String} {binding : Binding}
    (fits : Binding.Fits {} interfaceCommand.options word binding) :
    (binding.option = 0 ∧ binding.slot = way.slot) ↔ abbreviates word way.word = true := by
  obtain ⟨group, token, grouped, held, taken⟩ := fits
  obtain ⟨first, own, slot, accepts⟩ := exists_way grouped held
  have begins : abbreviates word own.word = true := (accepts _ _).symm.trans taken.accepted
  rw [slot]
  constructor
  · rintro ⟨-, same⟩
    obtain rfl : own = way := by
      cases own <;> cases way <;> first | rfl | contradiction
    exact begins
  · intro begun
    refine ⟨first, ?_⟩
    -- the two words begin differently
    by_contra different
    have apart : own.word.toList.head? ≠ way.word.toList.head? := by
      cases own <;> cases way <;> first | decide | contradiction
    rw [not_abbreviates begins apart] at begun
    contradiction

theorem has_iff_mentions (bound : Binding.ofWords {} interfaceCommand.options words = .ok bindings) :
    ({ bindings, negated } : Arguments).has 0 way.slot = true ↔ Mentions words way := by
  obtain ⟨unused, filled, sound, claimed, rfl⟩ := Binding.exists_of_ofWords bound
  have fits := Binding.fits_of_suits sound.suits claimed
  simp only [Arguments.has, Arguments.get?, Option.isSome_map, List.find?_isSome,
    Bool.and_eq_true, beq_iff_eq, Mentions]
  clear bound claimed sound
  generalize filled.filterMap id = bindings at fits
  induction fits with
  | nil => simp
  | cons first _ ih =>
      simp only [List.mem_cons, exists_eq_or_imp, ih, slot_iff_of_fits first]

/-- What a row keeps of the directions. -/
def directionOf (row : Row) : Direction :=
  Direction.parse (Dictionary.find? directionKey (row.mapAt "other_config"))

/-- Nothing but the directions has changed in the row. -/
structure Redirects (row later : Row) : Prop where
  keys : ∀ key, key ≠ directionKey → Dictionary.find? key (later.mapAt "other_config") =
    Dictionary.find? key (row.mapAt "other_config")
  columns : ∀ column, column ≠ "other_config" →
    Dictionary.find? column later = Dictionary.find? column row

theorem redirects_refl (row : Row) : Redirects row row := ⟨fun _ _ => rfl, fun _ _ => rfl⟩

theorem Redirects.trans {last : Row} (first : Redirects row later) (second : Redirects later last) :
    Redirects row last :=
  ⟨fun key other => (second.keys key other).trans (first.keys key other),
    fun column other => (second.columns column other).trans (first.columns column other)⟩

theorem redirects_put (row : Row) (value? : Option String) :
    Redirects row (row.put "other_config" directionKey value?) where
  keys _ other := by rw [Row.mapAt_put, if_pos rfl, Dictionary.find?_put, if_neg other]
  columns _ other := Row.find?_put_of_ne other

theorem directionOf_put (row : Row) (direction : Direction) :
    directionOf (row.put "other_config" directionKey (some direction.text)) = direction := by
  rw [directionOf, Row.mapAt_put, if_pos rfl, Dictionary.find?_put, if_pos rfl,
    Configuration.parse_text]

/-- The command changes the directions of the one row with the name of the interface. -/
theorem exists_run_configureInterface
    (selected : workspace.contexts.object? interfaceMode = some object)
    (present : memory.rows interfaceTable = above ++ row :: below)
    (alone : Memory.Alone [Condition.named object.text] above row below) (arguments : Arguments) :
    ∃ after later, Program.run Memory.transact ((configureInterface arguments).run workspace) memory =
        ((.ok .proceed, workspace), after) ∧
      Memory.Replaces interfaceTable (above ++ later :: below) memory after ∧
      Redirects row later ∧ directionOf later = (directionOf row).after arguments := by
  have compare : ∀ condition ∈ [Condition.named object.text], condition.Compares :=
    List.forall_mem_singleton.mpr (.inl rfl)
  obtain ⟨middle, asked, kept⟩ := alone.answer_getMap present compare "other_config"
  rw [configureInterface, run_objectOf_bind selected, Action.run_query_bind asked]
  -- nothing is written unless it changes a direction
  change ∃ after later, Program.run Memory.transact
    ((if (directionOf row).after arguments ≠ directionOf row then
      Action.query (Query.mapSetKey interfaceTable "other_config" directionKey
        ((directionOf row).after arguments).text [Condition.named object.text]) >>= fun _ =>
          pure Outcome.proceed
      else pure Outcome.proceed).run workspace) middle = _ ∧ _
  by_cases changed : (directionOf row).after arguments ≠ directionOf row
  · obtain ⟨after, written, replaced⟩ := alone.answer_set kept.rows compare "other_config"
      directionKey ((directionOf row).after arguments).text
    refine ⟨after, _, ?_, kept.trans replaced, redirects_put row _, directionOf_put row _⟩
    rw [if_pos changed, Action.run_query_bind written]
    rfl
  · refine ⟨middle, row, ?_, kept, redirects_refl row, (not_not.mp changed).symm⟩
    rw [if_neg changed]
    rfl

end SwitchShell.Feature.Lldp
