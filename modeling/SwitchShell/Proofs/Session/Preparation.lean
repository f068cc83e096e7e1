import SwitchShell.Proofs.Command.Faults
import SwitchShell.Proofs.Command.Lookup
import SwitchShell.Session

namespace SwitchShell

theorem Dispatch.isFatal_of_crash_failed {output : List Output} {fault crash : Fault}
    (crashed : (Dispatch.failed output fault).crash = some crash) : crash.isFatal = true := by
  unfold Dispatch.failed at crashed
  split at crashed
  · rename_i fatal
    cases crashed
    exact fatal
  · contradiction

namespace Session

variable {session : Session} {line : String} {words : List String} {negated : Bool}
  {exchanges : List Exchange} {invocation : Invocation} {found : Match} {names : Names}
  {arguments : Arguments} {handler : Handler}

/-- Finds the command that words stand for; a fault is all they lead to. -/
def prepareWords (session : Session) (negated : Bool) (words : List String) :
    Program (Except Dispatch Invocation) :=
  Program.andThen (fun result => .done (result.mapError Dispatch.ofFault))
    (resolve session.registry session.mode negated words).run

def explain (session : Session) (words : List String) : Dispatch :=
  match session.help words with
  | .ok output => { output }
  | .error fault => Dispatch.ofFault fault

/-- Finds the command of a line and binds its words.  The answer is the command
to invoke, or else all that the line leads to. -/
def prepare (session : Session) (line : String) : Program (Except Dispatch Invocation) :=
  match Text.words line with
  | [] => .done (.error {})
  | "help" :: words => .done (.error (session.explain words))
  | "no" :: words => session.prepareWords true words
  | words => session.prepareWords false words

/-- Invokes the command of a line if there is one. -/
def carryOut (session : Session) : Except Dispatch Invocation → Program (Dispatch × Session)
  | .ok invocation => session.invoke invocation
  | .error dispatch => .done (dispatch, session)

theorem runWords_eq_andThen :
    session.runWords negated words =
      Program.andThen session.carryOut (session.prepareWords negated words) := by
  unfold prepareWords runWords
  rw [Program.andThen_assoc]
  congr 1
  funext result
  cases result <;> rfl

theorem dispatch_eq_andThen :
    session.dispatch line = Program.andThen session.carryOut (session.prepare line) := by
  unfold dispatch prepare
  cases Text.words line with
  | nil => rfl
  | cons word words =>
      by_cases help : word = "help"
      · subst help
        simp only [explain]
        cases session.help words <;> rfl
      · by_cases negated : word = "no"
        · subst negated
          exact runWords_eq_andThen
        · simp only [List.cons.injEq, help, negated, false_and, false_implies, implies_true]
          exact runWords_eq_andThen

theorem isFatal_of_crash_conclude {result : Except Fault Outcome} {workspace : Workspace}
    {crash : Fault} (crashed : (session.conclude result workspace).1.crash = some crash) :
    crash.isFatal = true := by
  rcases result with fault | (_ | _ | _)
  · exact Dispatch.isFatal_of_crash_failed crashed
  all_goals contradiction

/-- A line breaks the program off at nothing but a fatal fault. -/
theorem isFatal_of_crash {σ : Type} {backend : Backend σ} {state : σ} {crash : Fault}
    (crashed : (Program.run backend (session.dispatch line) state).1.1.crash = some crash) :
    crash.isFatal = true := by
  have ofWords {negated : Bool} {words : List String}
      (crashed : (Program.run backend (session.runWords negated words) state).1.1.crash =
        some crash) : crash.isFatal = true := by
    rw [runWords, Program.run_andThen] at crashed
    split at crashed
    · rw [invoke, Program.run_andThen] at crashed
      exact isFatal_of_crash_conclude crashed
    · exact Dispatch.isFatal_of_crash_failed crashed
  unfold dispatch at crashed
  split at crashed
  · contradiction
  · split at crashed
    · contradiction
    · exact Dispatch.isFatal_of_crash_failed crashed
  · exact ofWords crashed
  · exact ofWords crashed

/-- Binding may fail on the words, then on what is required, then on a `no`. -/
theorem bind_eq :
    bind found words negated names =
      match Binding.ofWords names found.node.options (words.drop found.consumed) with
      | .error fault => .error fault
      | .ok bindings =>
          match Binding.checkRequired found.node.options bindings with
          | .error fault => .error fault
          | .ok _ =>
              if negated && !found.node.negatable then .error .noSuchCommand
              else .ok { bindings, negated } := by
  unfold bind
  cases Binding.ofWords names found.node.options (words.drop found.consumed) with
  | error fault => rfl
  | ok bindings =>
      simp only [Bind.bind, Except.bind]
      cases Binding.checkRequired found.node.options bindings with
      | error fault => rfl
      | ok _ => cases negated && !found.node.negatable <;> rfl

theorem faultIn_bind {kind : Fault → Prop}
    (binds : FaultIn kind
      (Binding.ofWords names found.node.options (words.drop found.consumed)))
    (required : kind .optionRequired) (unknown : kind .noSuchCommand) :
    FaultIn kind (bind found words negated names) := by
  intro fault failed
  rw [bind_eq] at failed
  split at failed
  · rename_i unbound
    cases failed
    exact binds _ unbound
  · split at failed
    · rename_i missing
      cases failed
      unfold Binding.checkRequired at missing
      split at missing
      · cases missing
        exact required
      · contradiction
    · split at failed
      · cases failed
        exact unknown
      · contradiction

theorem bind_eq_ok_iff :
    bind found words negated names = .ok arguments ↔
      Binding.ofWords names found.node.options (words.drop found.consumed) =
          .ok arguments.bindings ∧
        Binding.checkRequired found.node.options arguments.bindings = .ok () ∧
        (negated && !found.node.negatable) = false ∧ arguments.negated = negated := by
  rw [bind_eq]
  constructor
  · intro bound
    split at bound
    · contradiction
    · rename_i bindings opened
      split at bound
      · contradiction
      · rename_i checked
        split at bound
        · contradiction
        · rename_i permitted
          cases bound
          exact ⟨opened, checked, Bool.eq_false_iff.mpr permitted, rfl⟩
  · rintro ⟨opened, checked, permitted, rfl⟩
    simp only [opened, checked, permitted, Bool.false_eq_true, ↓reduceIte]

/-- Nothing but the words decides whether a command binds that may be negated and
requires none of its options. -/
theorem bind_of_optional
    (checked : ∀ bindings, Binding.checkRequired found.node.options bindings = .ok ())
    (negatable : found.node.negatable = true) :
    bind found words negated names =
      (Binding.ofWords names found.node.options (words.drop found.consumed)).map fun bindings =>
        { bindings, negated } := by
  rw [bind_eq]
  cases Binding.ofWords names found.node.options (words.drop found.consumed) with
  | error fault => rfl
  | ok bindings => simp only [checked, negatable, Bool.not_true, Bool.and_false]; rfl

theorem resolve_eq (looked : session.registry.lookup session.mode words = .ok found)
    (handled : found.node.handler = some handler) :
    resolve session.registry session.mode negated words =
      fetchNames found.node.options >>= fun names =>
        ExceptT.mk (pure ((bind found words negated names).map fun arguments =>
          { handler, arguments })) := by
  have looks : (ExceptT.mk (pure (.ok found)) : Query Match) = pure found := rfl
  rw [resolve, looked, looks, pure_bind]
  simp only [handled]
  refine congrArg (fetchNames found.node.options >>= ·) (funext fun names => ?_)
  cases bind found words negated names <;> rfl

/-- Without names the words alone decide. -/
theorem prepareWords_eq (looked : session.registry.lookup session.mode words = .ok found)
    (handled : found.node.handler = some handler)
    (unnamed : fetchNames found.node.options = pure {}) :
    session.prepareWords negated words =
      .done (((bind found words negated {}).map fun arguments =>
        { handler, arguments }).mapError Dispatch.ofFault) := by
  rw [prepareWords, resolve_eq looked handled, unnamed, pure_bind]
  rfl

/-- The command that words were found to stand for, with its options bound. -/
structure Resolved (session : Session) (negated : Bool) (words : List String)
    (exchanges : List Exchange) (invocation : Invocation) (found : Match) (names : Names) :
    Prop where
  looked : session.registry.lookup session.mode words = .ok found
  handled : found.node.handler = some invocation.handler
  fetched : Program.Yields (fetchNames found.node.options).run exchanges (.ok names)
  bound : bind found words negated names = .ok invocation.arguments

theorem resolved_of_yields_resolve
    (yields : Program.Yields (resolve session.registry session.mode negated words).run exchanges
      (.ok invocation)) :
    ∃ found names, session.Resolved negated words exchanges invocation found names := by
  unfold resolve at yields
  rcases Query.yields_bind_iff.mp yields with
    ⟨_, _, found, rfl, searched, onward⟩ | ⟨_, _, impossible⟩
  · obtain ⟨rfl, looked⟩ := Query.yields_of_iff.mp searched
    split at onward
    · obtain ⟨_, impossible⟩ := Query.yields_throw_iff.mp onward
      contradiction
    · rename_i handler handled
      rcases Query.yields_bind_iff.mp onward with
        ⟨_, _, names, rfl, fetched, onward⟩ | ⟨_, _, impossible⟩
      · rcases Query.yields_bind_iff.mp onward with
          ⟨_, _, arguments, rfl, tried, ended⟩ | ⟨_, _, impossible⟩
        · obtain ⟨rfl, bound⟩ := Query.yields_of_iff.mp tried
          obtain ⟨rfl, same⟩ := Query.yields_pure_iff.mp ended
          cases same
          simp only [List.append_nil, List.nil_append]
          exact ⟨found, names, looked.symm, handled, fetched, bound.symm⟩
        · contradiction
      · contradiction
  · contradiction

/-- What a line comes to before a handler runs: a command with its options
bound, or else output without the end of the session. -/
theorem resolved_of_yields_prepare {prepared : Except Dispatch Invocation}
    (yields : Program.Yields (session.prepare line) exchanges prepared) :
    (∃ dispatch, prepared = .error dispatch ∧ dispatch.terminate = false) ∨
      ∃ negated words invocation found names, prepared = .ok invocation ∧
        session.Resolved negated words exchanges invocation found names := by
  have ofWords : ∀ {negated words},
      Program.Yields (session.prepareWords negated words) exchanges prepared →
      (∃ dispatch, prepared = .error dispatch ∧ dispatch.terminate = false) ∨
        ∃ negated words invocation found names, prepared = .ok invocation ∧
          session.Resolved negated words exchanges invocation found names := by
    intro negated words yields
    obtain ⟨first, rest, result, rfl, resolved, ended⟩ := Program.yields_andThen_iff.mp yields
    obtain ⟨rfl, rfl⟩ := Program.yields_done_iff.mp ended
    cases result with
    | error fault => exact .inl ⟨_, rfl, Dispatch.terminate_ofFault fault⟩
    | ok invocation =>
        obtain ⟨found, names, known⟩ := resolved_of_yields_resolve resolved
        rw [List.append_nil]
        exact .inr ⟨negated, words, invocation, found, names, rfl, known⟩
  unfold prepare at yields
  split at yields
  · obtain ⟨_, rfl⟩ := Program.yields_done_iff.mp yields
    exact .inl ⟨{}, rfl, rfl⟩
  · obtain ⟨_, rfl⟩ := Program.yields_done_iff.mp yields
    refine .inl ⟨_, rfl, ?_⟩
    unfold explain
    split
    · rfl
    · exact Dispatch.terminate_ofFault _
  · exact ofWords yields
  · exact ofWords yields

end Session

end SwitchShell
