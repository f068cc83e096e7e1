import SwitchShell.Proofs.Feature.Builtin
import SwitchShell.Proofs.Session.Preparation

namespace SwitchShell

/-! A completed line can be run exactly if completion says so.

Completion and dispatch take a line apart on their own.  They meet in the node
that the words lead to, in the names that its options depend on and in the
binding of its option words.
-/

namespace OptionGroup

variable {group : OptionGroup} {names : Names} {tokens : List Token} {words : List String}

theorem sequenceCandidates_exists (some : tokens ≠ []) :
    ∃ next, sequenceCandidates names tokens words = .ok next := by
  induction tokens generalizing words with
  | nil => contradiction
  | cons token tokens ih =>
      cases words with
      | nil => exact ⟨_, rfl⟩
      | cons word words =>
          simp only [sequenceCandidates]
          split
          · exact ⟨_, rfl⟩
          · cases tokens with
            | nil => exact ⟨_, rfl⟩
            | cons second later => exact ih (List.cons_ne_nil second later)

theorem candidates_exists (names : Names) (words : List String) (some : group.tokens ≠ []) :
    ∃ next, group.candidates names words = .ok next := by
  obtain ⟨policy, tokens, required⟩ := group
  cases tokens with
  | nil => contradiction
  | cons first later =>
      cases policy with
      | oneOf =>
          simp only [candidates]
          split <;> exact ⟨_, rfl⟩
      | anyUnordered => exact ⟨_, rfl⟩
      | anyOrdered =>
          simp only [candidates]
          split
          · exact ⟨_, rfl⟩
          · split
            · split <;> exact ⟨_, rfl⟩
            · exact ⟨_, rfl⟩
      | allOrdered =>
          simp only [candidates]
          split
          · exact ⟨_, rfl⟩
          · exact sequenceCandidates_exists (List.cons_ne_nil first later)

end OptionGroup

namespace Completion

variable {names : Names} {groups : List OptionGroup} {request : Request} {found : Match}

theorem offered_exists (names : Names) (words : List String) (tokens : List Token)
    (some : ∀ group ∈ groups, group.tokens ≠ []) :
    ∃ next, offered names words groups tokens = .ok next := by
  induction groups generalizing tokens with
  | nil => exact ⟨_, rfl⟩
  | cons group groups ih =>
      obtain ⟨next, answered⟩ :=
        OptionGroup.candidates_exists names words (some group List.mem_cons_self)
      simp only [offered, answered]
      cases next with
      | alongside next => exact ih _ fun other member => some other (List.mem_cons_of_mem group member)
      | only next => exact ⟨_, rfl⟩

/-- The words bind to the options and the command may be negated if it is. -/
def runs (names : Names) (request : Request) (found : Match) : Bool :=
  (!request.negated || found.node.negatable) &&
    isComplete names found.node.options (request.words.drop found.consumed)

theorem ofCommand_executable (names : Names) (request : Request) (wellFormed : found.node.WellFormed) :
    ∃ completion, ofCommand names request found = .ok completion ∧
      completion.executable =
        (found.node.isConcrete && request.stem.isEmpty && runs names request found) := by
  cases concrete : found.node.isConcrete with
  | false =>
      simp only [ofCommand, concrete, Bool.false_eq_true, ↓reduceIte]
      exact ⟨_, rfl, rfl⟩
  | true =>
      obtain ⟨next, answered⟩ :=
        offered_exists names (request.words.drop found.consumed) [] wellFormed.tokens
      simp only [ofCommand, concrete, ↓reduceIte, answered]
      refine ⟨_, rfl, ?_⟩
      simp only [runs, Bool.true_and, Bool.and_assoc]

/-- There is always a completion, wherever the words lead. -/
theorem exists_ofRequest {registry : Registry} {mode : String} (wellFormed : registry.WellFormed)
    (names : Names) (request : Request) :
    ∃ completion, ofRequest registry mode names request
      (Position.locate registry mode request.words) = .ok completion := by
  unfold Position.locate
  split
  · exact ⟨_, rfl⟩
  · cases looked : registry.lookup mode request.words with
    | error fault => exact ⟨_, rfl⟩
    | ok found =>
        obtain ⟨completion, answered, _⟩ := ofCommand_executable names request
          (Registry.wellFormed_of_lookup wellFormed looked)
        exact ⟨completion, answered⟩

theorem nameKinds_eq (options : List OptionGroup) :
    nameKinds options = [] ∨ nameKinds options = [.interface] := by
  unfold nameKinds
  cases options.flatMap OptionGroup.nameKinds with
  | nil => exact .inl rfl
  | cons kind kinds =>
      have others : (kinds.filter fun other => !other == kind) = [] := by
        rw [List.filter_eq_nil_iff]
        intro other _
        cases other
        cases kind
        decide
      cases kind
      exact .inr (by rw [List.eraseDups_cons, others]; rfl)

end Completion

namespace Session

variable {σ : Type} {session : Session} {backend : Backend σ} {asked given : σ}
  {line : String} {words : List String} {found : Match} {names : Names} {negated : Bool}

/-- Two states of the database list the same interfaces, or refuse alike. -/
def SameNames (backend : Backend σ) (left right : σ) : Prop :=
  (Query.answer backend Query.interfaceNames left).1 =
    (Query.answer backend Query.interfaceNames right).1

theorem fetchNames_eq_of_sameNames (same : SameNames backend asked given)
    (options : List OptionGroup) :
    (Query.answer backend (fetchNames options) asked).1 =
      (Query.answer backend (fetchNames options) given).1 := by
  unfold fetchNames
  rcases Completion.nameKinds_eq options with kinds | kinds
  · simp [kinds]
  · simp only [kinds, Query.names, Query.answer_bind]
    unfold SameNames at same
    revert same
    rcases Query.answer backend Query.interfaceNames asked with ⟨left, _⟩
    rcases Query.answer backend Query.interfaceNames given with ⟨right, _⟩
    rintro rfl
    cases left <;> rfl

theorem bind_isOk :
    (bind found words negated names).isOk =
      ((!negated || found.node.negatable) &&
        Completion.isComplete names found.node.options (words.drop found.consumed)) := by
  rw [bind_eq]
  unfold Completion.isComplete
  cases Binding.ofWords names found.node.options (words.drop found.consumed) with
  | error fault => exact (Bool.and_false _).symm
  | ok bindings =>
      cases checked : Binding.checkRequired found.node.options bindings with
      | error fault => simp [checked, Except.isOk, Except.toBool]
      | ok _ =>
          cases negated <;> cases found.node.negatable <;>
            simp [checked, Except.isOk, Except.toBool]

/-- A line that ends in white space and does not ask for help: completion and
dispatch look at the same words. -/
theorem parse_of_endsBlank (blank : Text.endsBlank line = true)
    (noHelp : (Text.words line).head? ≠ some "help") :
    Completion.Request.parse line =
      { words := Completion.dropWord "no" (Text.words line)
        stem := ""
        negated := (Text.words line).head? == some "no" } := by
  have asked : Completion.dropWord "help" (Text.words line) = Text.words line := by
    cases split : Text.words line with
    | nil => rfl
    | cons first rest =>
        rw [split] at noHelp
        have different : first ≠ "help" := fun same => noHelp (by rw [same]; rfl)
        simp only [Completion.dropWord, if_neg different]
  simp only [Completion.Request.parse, Completion.stemOf, blank, Bool.or_true, ↓reduceIte, asked]

theorem prepareWords_ok_iff {negated : Bool} {words : List String} {invocation : Invocation}
    {later : σ} :
    Program.run backend (session.prepareWords negated words) given = (.ok invocation, later) ↔
      Query.answer backend (resolve session.registry session.mode negated words) given =
        (.ok invocation, later) := by
  unfold prepareWords
  rw [Program.run_andThen]
  change (_, _) = _ ↔ _
  unfold Query.answer
  rcases Program.run backend
    (resolve session.registry session.mode negated words).run given with ⟨result, state⟩
  cases result <;> simp [Except.mapError]

/-- The words that a line asks to run.  A blank line asks for nothing, which is
never a command. -/
theorem prepare_ok_iff (noHelp : (Text.words line).head? ≠ some "help")
    {invocation : Invocation} {later : σ} :
    Program.run backend (session.prepare line) given = (.ok invocation, later) ↔
      Query.answer backend
        (resolve session.registry session.mode ((Text.words line).head? == some "no")
          (Completion.dropWord "no" (Text.words line))) given = (.ok invocation, later) := by
  unfold prepare
  cases split : Text.words line with
  | nil =>
      have nothing : Query.answer backend (resolve session.registry session.mode false []) given =
          (.error .noSuchCommand, given) := by
        simp [resolve, Query.answer_bind]
      simp [Completion.dropWord, nothing]
  | cons first rest =>
      rw [split] at noHelp
      have different : first ≠ "help" := fun same => noHelp (by rw [same]; rfl)
      by_cases no : first = "no"
      · subst first
        exact prepareWords_ok_iff
      · have plain : Completion.dropWord "no" (first :: rest) = first :: rest := by
          simp only [Completion.dropWord, if_neg no]
        have positive : ((first :: rest).head? == some "no") = false := by simp [no]
        rw [plain, positive, ← prepareWords_ok_iff]
        split
        · contradiction
        · simp_all
        · simp_all
        · rfl

/-- The conditions under which words can be run, with the names of one state of
the database. -/
def Runnable (backend : Backend σ) (state : σ) (session : Session)
    (request : Completion.Request) : Prop :=
  ∃ found names, session.registry.lookup session.mode request.words = .ok found ∧
    found.node.isConcrete = true ∧
    (Query.answer backend (fetchNames found.node.options) state).1 = .ok names ∧
    Completion.runs names request found = true

theorem runnable_iff_of_lookup {request : Completion.Request}
    (looked : session.registry.lookup session.mode request.words = .ok found) :
    Runnable backend given session request ↔
      found.node.isConcrete = true ∧
        ∃ names, (Query.answer backend (fetchNames found.node.options) given).1 = .ok names ∧
          Completion.runs names request found = true := by
  unfold Runnable
  constructor
  · rintro ⟨other, names, also, concrete, fetched, runs⟩
    cases looked.symm.trans also
    exact ⟨concrete, names, fetched, runs⟩
  · rintro ⟨concrete, names, fetched, runs⟩
    exact ⟨found, names, looked, concrete, fetched, runs⟩

theorem not_runnable_of_lookup {request : Completion.Request} {fault : Fault}
    (looked : session.registry.lookup session.mode request.words = .error fault) :
    ¬ Runnable backend given session request := by
  rintro ⟨found, _, also, _⟩
  cases looked.symm.trans also

theorem resolve_ok_iff (request : Completion.Request) :
    (∃ invocation later, Query.answer backend
        (resolve session.registry session.mode request.negated request.words) given =
          (.ok invocation, later)) ↔
      Runnable backend given session request := by
  unfold resolve
  rw [Query.answer_bind, Query.answer_of]
  cases looked : session.registry.lookup session.mode request.words with
  | error fault => simp [not_runnable_of_lookup looked]
  | ok found =>
      rw [runnable_iff_of_lookup looked]
      cases handled : found.node.handler with
      | none => simp [Node.isConcrete, handled]
      | some handler =>
          have concrete : found.node.isConcrete = true := by simp [Node.isConcrete, handled]
          simp only [handled, Query.answer_bind, concrete, true_and]
          rcases Query.answer backend (fetchNames found.node.options) given with ⟨fetched, state⟩
          cases fetched with
          | error fault => simp
          | ok names =>
              have runs : Completion.runs names request found =
                  (bind found request.words request.negated names).isOk := bind_isOk.symm
              cases bound : bind found request.words request.negated names <;>
                simp [runs, bound, Except.isOk, Except.toBool]

theorem complete_of_lookup {request : Completion.Request}
    (parsed : Completion.Request.parse line = request) (some : request.words ≠ [])
    (looked : session.registry.lookup session.mode request.words = .ok found) :
    session.complete line = fetchNames found.node.options >>= fun names =>
      ExceptT.mk (pure (Completion.ofCommand names request found)) := by
  have located : Completion.Position.locate session.registry session.mode request.words =
      .command found := by
    simp [Completion.Position.locate, some, looked]
  have kinds : (Completion.Position.command found).nameKinds =
      Completion.nameKinds found.node.options := rfl
  simp only [complete, parsed, located, kinds]
  unfold fetchNames
  cases Completion.nameKinds found.node.options <;> rfl

theorem complete_executable_iff_runnable (wellFormed : session.registry.WellFormed)
    {request : Completion.Request} (parsed : Completion.Request.parse line = request)
    (finished : request.stem = "") :
    (∃ completion, (Query.answer backend (session.complete line) asked).1 = .ok completion ∧
        completion.executable = true) ↔
      Runnable backend asked session request := by
  by_cases blank : request.words = []
  · have looked : session.registry.lookup session.mode request.words = .error .noSuchCommand := by
      rw [blank, Registry.lookup_nil]
    simp [complete, parsed, blank, Completion.Position.locate, Completion.Position.nameKinds,
      Completion.ofRequest, not_runnable_of_lookup looked]
  · cases looked : session.registry.lookup session.mode request.words with
    | error fault =>
        simp [complete, parsed, blank, looked, Completion.Position.locate,
          Completion.Position.nameKinds, Completion.ofRequest, not_runnable_of_lookup looked]
    | ok found =>
        rw [runnable_iff_of_lookup looked, complete_of_lookup parsed blank looked,
          Query.answer_bind]
        rcases Query.answer backend (fetchNames found.node.options) asked with ⟨fetched, state⟩
        cases fetched with
        | error fault => simp
        | ok names =>
            obtain ⟨completion, answered, executable⟩ :=
              Completion.ofCommand_executable names request
                (Registry.wellFormed_of_lookup wellFormed looked)
            simp [answered, executable, finished]

/-- Completion marks a line that ends in white space as one that can be run if and
only if a dispatch of it gets as far as the handler of a command, given that the
database names the same interfaces both times. -/
theorem complete_executable_iff_dispatch_invokes (built : session.registry.Built)
    (blank : Text.endsBlank line = true) (noHelp : (Text.words line).head? ≠ some "help")
    (same : SameNames backend asked given) :
    (∃ completion, (Query.answer backend (session.complete line) asked).1 = .ok completion ∧
        completion.executable = true) ↔
      ∃ invocation later,
        Program.run backend (session.prepare line) given = (.ok invocation, later) ∧
          Program.run backend (session.dispatch line) given =
            Program.run backend (session.invoke invocation) later := by
  rw [complete_executable_iff_runnable built.wellFormed (parse_of_endsBlank blank noHelp) rfl]
  have dispatched : ∀ invocation later,
      Program.run backend (session.prepare line) given = (.ok invocation, later) →
        Program.run backend (session.dispatch line) given =
          Program.run backend (session.invoke invocation) later := by
    intro invocation later prepared
    rw [dispatch_eq_andThen, Program.run_andThen, prepared]
    rfl
  constructor
  · rintro ⟨found, names, looked, concrete, fetched, runs⟩
    obtain ⟨invocation, later, resolved⟩ := (resolve_ok_iff _).mpr
      ⟨found, names, looked, concrete, (fetchNames_eq_of_sameNames same _).symm.trans fetched, runs⟩
    have prepared := (prepare_ok_iff noHelp).mpr resolved
    exact ⟨invocation, later, prepared, dispatched invocation later prepared⟩
  · rintro ⟨invocation, later, prepared, _⟩
    obtain ⟨found, names, looked, concrete, fetched, runs⟩ :=
      (resolve_ok_iff { words := _, stem := "", negated := _ }).mp
        ⟨invocation, later, (prepare_ok_iff noHelp).mp prepared⟩
    exact ⟨found, names, looked, concrete, (fetchNames_eq_of_sameNames same _).trans fetched, runs⟩

/-- A database that answers everything with rows of one name. -/
def oneName (name : String) : Backend Unit := fun _ _ =>
  (.ok [{ rows := [[("name", .string name)]] }], ())

theorem answer_oneName (name : String) :
    Query.answer (oneName name) Query.interfaceNames () = (.ok [name], ()) := by
  have row : Row.textAt? [("name", .string name)] "name" = some name := rfl
  have sorted : Text.naturalSort [name] = [name] := List.mergeSort_singleton name
  simp only [Query.interfaceNames, Query.answer_bind]
  change ((Except.ok (Text.naturalSort _), ()) : Except Fault (List String) × Unit) = _
  simp [row, sorted]

/-- The line of a command whose option words are names of the database. -/
theorem interface_line_invokes :
    let session : Session :=
      { registry := Feature.builtin, contexts := [{ mode := Feature.configMode }]
        hostname := "switch" }
    let line := "  int uplink "
    Text.endsBlank line = true ∧ (Text.words line).head? ≠ some "help" ∧
      SameNames (oneName "uplink") () () ∧
      ∃ invocation later,
        Program.run (oneName "uplink") (session.prepare line) () = (.ok invocation, later) ∧
          Program.run (oneName "uplink") (session.dispatch line) () =
            Program.run (oneName "uplink") (session.invoke invocation) later := by
  intro session line
  have blank : Text.endsBlank line = true := by decide
  have noHelp : (Text.words line).head? ≠ some "help" := by decide
  refine ⟨blank, noHelp, rfl, ?_⟩
  have built : session.registry.Built := Feature.builtin_built
  have same : SameNames (oneName "uplink") () () := rfl
  refine (complete_executable_iff_dispatch_invokes built blank noHelp same).mp ?_
  have words : Text.words line = ["int", "uplink"] := by decide
  have parsed : Completion.Request.parse line =
      { words := ["int", "uplink"], stem := "", negated := false } := by
    rw [parse_of_endsBlank blank noHelp, words]
    rfl
  have looked : session.registry.lookup session.mode ["int", "uplink"] =
      .ok { node := Feature.Interface.configureCommand.leaf, consumed := 1 } := rfl
  refine (complete_executable_iff_runnable Feature.builtin_built.wellFormed parsed rfl).mpr ?_
  refine (runnable_iff_of_lookup looked).mpr ⟨rfl, { interfaces := ["uplink"] }, ?_, rfl⟩
  change (Query.answer (oneName "uplink") (Query.names [.interface]) ()).1 = _
  simp only [Query.names, Query.answer_bind, answer_oneName]
  rfl

end Session

end SwitchShell
