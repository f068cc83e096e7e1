import SwitchShell.Feature.Builtin
import SwitchShell.Proofs.Store.Entry

namespace SwitchShell.Feature

/-! Requests, of which the commands that change the database make one or more.

A request is one transaction that writes, or one that asks and then, if need be,
one that writes what follows from the answer.  Its effect is what it does if
nobody comes between the two.
-/

inductive Request where
  /-- Sets a global LLDP setting or removes it. -/
  | setting (key : String) (value? : Option String)
  /-- Raises a counter of what is to be cleared. -/
  | clear (counter : String)
  /-- Changes the LLDP directions of an interface. -/
  | direct (name : String) (arguments : Arguments)
  /-- Switches an interface on or off. -/
  | administer (name : String) (up : Bool)
  /-- Makes a VLAN unless it is there. -/
  | create (id : Int)
  /-- Switches a VLAN on or off. -/
  | switch (id : Int) (up : Bool)

namespace Request

def settingAt (key : String) : Entry := .system "other_config" key

def counterAt (counter : String) : Entry := .system "status" counter

def directionAt (name : String) : Entry := .interface name "other_config" Lldp.directionKey

def stateAt (name : String) : Entry := .interface name "user_config" "admin"

/-- The request sets something whatever is there. -/
def isSetting : Request → Bool
  | setting _ _ => true
  | _ => false

/-- What the request asks before it writes. -/
def question? : Request → Option Operation
  | clear counter => some (counterAt counter).ask
  | direct name _ => some (directionAt name).ask
  | create id => some (.select vlanTable [Vlan.identified id] (some ["id"]))
  | setting _ _ | administer _ _ | switch _ _ => none

/-- The counter after the one in an answer. -/
def nextOf (counter : String) (results : List OperationResult) : Except Fault Nat :=
  Lldp.nextCount (Dictionary.find? counter (Entry.mapOf "status" results))

/-- What the request writes after an answer to its question. -/
def writes : Request → List OperationResult → Option Operation
  | setting key value?, _ => some ((settingAt key).put value?)
  | clear counter, results =>
      (nextOf counter results).toOption.map fun next =>
        (counterAt counter).put (some (toString next))
  | direct name arguments, results =>
      let old := Lldp.Direction.parse
        (Dictionary.find? Lldp.directionKey (Entry.mapOf "other_config" results))
      let new := old.after arguments
      if new ≠ old then some ((directionAt name).put (some new.text)) else none
  | administer name up, _ => some ((stateAt name).put (some (adminText up)))
  | create id, results =>
      if (Entry.rowsOf results).isEmpty then some (.insert vlanTable (Vlan.newRow id)) else none
  | switch id up, _ =>
      some (.update vlanTable [Vlan.identified id] [("admin", .string (adminText up))])

/-- What comes of an answer after which nothing is written. -/
def unwritten : Request → List OperationResult → Except Fault Unit
  | clear counter, results => (nextOf counter results).map fun _ => ()
  | _, _ => .ok ()

/-- What comes of the answer to what was written. -/
def outcome : Request → List OperationResult → Except Fault Unit
  | switch id _, results =>
      if Query.countOf results = 0 then .error (.refused (.vlanMissing id)) else .ok ()
  | _, _ => .ok ()

def ask (request : Request) : Query (List OperationResult) :=
  match request.question? with
  | none => pure []
  | some question => Query.transact [question]

def finish (request : Request) (results : List OperationResult) : Query Unit :=
  match request.writes results with
  | none => ExceptT.mk (pure (request.unwritten results))
  | some operation => do
      let results ← Query.transact [operation]
      ExceptT.mk (pure (request.outcome results))

def query (request : Request) : Query Unit := do
  let results ← request.ask
  request.finish results

/-- Makes requests one after the other until one fails. -/
def inTurn : List Request → Query Unit
  | [] => pure ()
  | request :: requests => do
      request.query
      inTurn requests

section Yields

variable {request : Request} {exchanges : List Exchange} {results : List OperationResult}

theorem asked_of_yields {result : Answer} (yields : Program.Yields request.ask.run exchanges result) :
    (request.question? = none ∧ exchanges = [] ∧ result = .ok []) ∨
      ∃ question, request.question? = some question ∧
        exchanges = [{ operations := [question], answer := result }] := by
  unfold ask at yields
  split at yields
  · rename_i unasked
    exact .inl ⟨unasked, Query.yields_pure_iff.mp yields⟩
  · rename_i question asked
    exact .inr ⟨question, asked, Query.yields_transact_iff.mp yields⟩

theorem finished_of_yields {result : Except Fault Unit}
    (yields : Program.Yields (request.finish results).run exchanges result) :
    (request.writes results = none ∧ exchanges = [] ∧ result = request.unwritten results) ∨
      ∃ operation answer, request.writes results = some operation ∧
        exchanges = [{ operations := [operation], answer }] ∧
        result = answer.bind request.outcome := by
  unfold finish at yields
  split at yields
  · rename_i unwritten
    exact .inl ⟨unwritten, Query.yields_of_iff.mp yields⟩
  · rename_i operation written
    refine .inr ⟨operation, ?_⟩
    rcases Query.yields_bind_iff.mp yields with
      ⟨_, _, results', rfl, sent, ended⟩ | ⟨fault, sent, rfl⟩
    · obtain ⟨rfl, rfl⟩ := Query.yields_of_iff.mp ended
      rw [List.append_nil]
      exact ⟨.ok results', written, Query.yields_transact_iff.mp sent, rfl⟩
    · exact ⟨.error fault, written, Query.yields_transact_iff.mp sent, rfl⟩

theorem clear_of_unwritten {failure : Fault} (failed : request.unwritten results = .error failure) :
    (∃ counter, request = clear counter) ∧ failure = .overflow := by
  cases request with
  | clear counter =>
      simp only [unwritten] at failed
      cases next : nextOf counter results with
      | ok count =>
          rw [next] at failed
          contradiction
      | error fault =>
          rw [next] at failed
          cases failed
          exact ⟨⟨counter, rfl⟩, Lldp.eq_overflow_of_nextCount next⟩
  | setting _ _ | direct _ _ | administer _ _ | create _ | switch _ _ => contradiction

theorem switch_of_outcome {failure : Fault} (failed : request.outcome results = .error failure) :
    ∃ id up, request = switch id up ∧ Query.countOf results = 0 := by
  cases request with
  | switch id up =>
      refine ⟨id, up, rfl, ?_⟩
      rw [outcome] at failed
      split at failed
      · assumption
      · contradiction
  | setting _ _ | clear _ | direct _ _ | administer _ _ | create _ => contradiction

theorem isSetting_of_failure {failure : Fault}
    (yields : Program.Yields request.query.run exchanges (.error failure))
    (answered : ∀ exchange ∈ exchanges, exchange.Answered) : request.isSetting = false := by
  rcases Query.yields_bind_iff.mp yields with
    ⟨first, rest, results, rfl, _, ending⟩ | ⟨_, asking, _⟩
  · rcases finished_of_yields ending with ⟨_, _, fails⟩ | ⟨operation, answer, _, rfl, fails⟩
    · obtain ⟨⟨counter, rfl⟩, _⟩ := clear_of_unwritten fails.symm
      rfl
    · obtain ⟨results', same⟩ := answered { operations := [operation], answer } (by simp)
      cases same
      obtain ⟨id, up, rfl, _⟩ := switch_of_outcome fails.symm
      rfl
  · rcases asked_of_yields asking with ⟨_, _, impossible⟩ | ⟨question, _, rfl⟩
    · contradiction
    · obtain ⟨results, impossible⟩ := answered _ List.mem_cons_self
      contradiction

end Yields

theorem set_eq (key value : String) :
    Lldp.set key value = (setting key (some value)).query := by
  refine congrArg (Program.transact _) (funext fun answer => ?_)
  cases answer <;> rfl

theorem setOrClear_eq (key : String) (value : Value) (present : Bool) :
    Lldp.setOrClear key value present =
      (setting key (if present then some value.text else none)).query := by
  cases present with
  | true => exact set_eq key value.text
  | false =>
      refine congrArg (Program.transact _) (funext fun answer => ?_)
      cases answer <;> rfl

theorem requestClear_eq (counter : String) :
    Lldp.requestClear counter = (clear counter).query := by
  have asked : Query.getMap systemTable "status" [] =
      ((clear counter).ask >>= fun results => pure (Entry.mapOf "status" results)) := by
    refine congrArg (Program.transact _) (funext fun answer => ?_)
    rcases answer with _ | ⟨_ | _⟩ <;> rfl
  have set : ∀ text, Query.mapSetKey systemTable "status" counter text [] = (do
      let results ← Query.transact [(counterAt counter).put (some text)]
      ExceptT.mk (pure ((clear counter).outcome results))) := by
    intro text
    refine congrArg (Program.transact _) (funext fun answer => ?_)
    cases answer <;> rfl
  unfold Lldp.requestClear
  simp only [asked, query, bind_assoc, pure_bind]
  congr 1
  funext results
  unfold finish
  simp only [writes, unwritten, nextOf]
  cases Lldp.nextCount (Dictionary.find? counter (Entry.mapOf "status" results)) with
  | error fault => rfl
  | ok next => exact set _

theorem inTurn_append (first others : List Request) :
    inTurn (first ++ others) = (inTurn first >>= fun _ => inTurn others) := by
  induction first with
  | nil => rfl
  | cons request first ih => simp only [List.cons_append, inTurn, ih, bind_assoc]

theorem inTurn_singleton (request : Request) : inTurn [request] = request.query :=
  bind_pure request.query

end Request

theorem query_bind {α β : Type} (first : Query α) (others : α → Query β) :
    Action.query (first >>= others) =
      (Action.query first >>= fun value => Action.query (others value)) := by
  funext workspace
  change Program.andThen _ (Program.andThen _ first.run) =
    Program.andThen _ (Program.andThen _ first.run)
  rw [Program.andThen_assoc, Program.andThen_assoc]
  congr 1
  funext answer
  cases answer <;> rfl

theorem query_pure {α : Type} (value : α) : Action.query (pure value) = pure value := rfl

theorem query_of {α : Type} (result : Except Fault α) :
    Action.query (ExceptT.mk (pure result)) = (match result with
      | .ok value => pure value
      | .error fault => throw fault : Action α) := by
  cases result <;> rfl

theorem run_get_bind {α : Type} {next : Workspace → Action α} {workspace : Workspace} :
    (get >>= next).run workspace = (next workspace).run workspace := rfl

theorem run_objectOf_bind {α : Type} {mode : String} {missing : Refusal} {next : Value → Action α}
    {workspace : Workspace} {object : Value}
    (selected : workspace.contexts.object? mode = some object) :
    (Action.objectOf mode missing >>= next).run workspace = (next object).run workspace := by
  unfold Action.objectOf
  rw [bind_assoc, run_get_bind]
  simp only [selected, pure_bind]

theorem run_objectOf_bind_of_none {α : Type} {mode : String} {missing : Refusal}
    {next : Value → Action α} {workspace : Workspace}
    (unselected : workspace.contexts.object? mode = none) :
    (Action.objectOf mode missing >>= next).run workspace =
      .done (.error (.refused missing), workspace) := by
  unfold Action.objectOf
  rw [bind_assoc, run_get_bind]
  simp only [unselected]
  rfl

namespace Vlan

open Request

theorem configure_eq {arguments : Arguments} {id : Int} (bound : arguments.integer? = some id) :
    configure arguments = (do
      Action.query (create id).query
      Action.enter { mode := vlanMode, object := some (.integer id) }
      return .proceed) := by
  have asked : Query.select vlanTable [identified id] (some ["id"]) =
      ((create id).ask >>= fun results => pure (Entry.rowsOf results)) := by
    refine congrArg (Program.transact _) (funext fun answer => ?_)
    rcases answer with _ | ⟨_ | _⟩ <;> rfl
  have made : Query.insert vlanTable (newRow id) = (do
      let results ← Query.transact [.insert vlanTable (newRow id)]
      ExceptT.mk (pure ((create id).outcome results))) := by
    refine congrArg (Program.transact _) (funext fun answer => ?_)
    cases answer <;> rfl
  unfold configure
  simp only [bound, asked, query, query_bind, bind_assoc, query_pure, pure_bind]
  congr 1
  funext results
  unfold finish
  cases missing : (Entry.rowsOf results).isEmpty with
  | true => simp only [writes, missing, if_true, made]
  | false => simp only [writes, missing, Bool.false_eq_true, if_false, unwritten, query_of, pure_bind]

theorem run_shutdown {arguments : Arguments} {workspace : Workspace} {id : Int}
    (selected : (workspace.contexts.object? vlanMode).bind Value.integer? = some id) :
    (shutdown arguments).run workspace =
      (Action.query (switch id arguments.negated).query >>= fun _ => pure .proceed).run
        workspace := by
  have updated : ∀ row, Query.update vlanTable [identified id] row =
      (Query.transact [.update vlanTable [identified id] row] >>= fun results =>
        pure (Query.countOf results)) := fun _ => rfl
  unfold shutdown
  rw [run_get_bind]
  simp only [selected, query, ask, question?, pure_bind, finish, writes, updated, query_bind,
    bind_assoc, query_pure]
  congr 2
  funext results
  by_cases missing : Query.countOf results = 0
  · simp only [missing, outcome, if_true, query_of]
  · simp only [missing, outcome, if_false, query_of, pure_bind]

end Vlan

namespace Interface

open Request

theorem run_shutdown {arguments : Arguments} {workspace : Workspace} {object : Value}
    (selected : workspace.contexts.object? interfaceMode = some object) :
    (shutdown arguments).run workspace =
      (Action.query (administer object.text arguments.negated).query >>= fun _ =>
        pure .proceed).run workspace := by
  have set : Query.mapSetKey interfaceTable "user_config" "admin" (adminText arguments.negated)
      [Condition.named object.text] = (administer object.text arguments.negated).query := by
    refine congrArg (Program.transact _) (funext fun answer => ?_)
    cases answer <;> rfl
  unfold shutdown
  rw [run_objectOf_bind selected, set]

end Interface

namespace Lldp

open Request

theorem run_configureInterface {arguments : Arguments} {workspace : Workspace} {object : Value}
    (selected : workspace.contexts.object? interfaceMode = some object) :
    (configureInterface arguments).run workspace =
      (Action.query (direct object.text arguments).query >>= fun _ => pure .proceed).run
        workspace := by
  have asked : Query.getMap interfaceTable "other_config" [Condition.named object.text] =
      ((direct object.text arguments).ask >>= fun results =>
        pure (Entry.mapOf "other_config" results)) := by
    refine congrArg (Program.transact _) (funext fun answer => ?_)
    rcases answer with _ | ⟨_ | ⟨⟨_ | _, _, _, _, _⟩, _⟩⟩ <;> rfl
  have set : ∀ text, Query.mapSetKey interfaceTable "other_config" directionKey text
      [Condition.named object.text] = (do
        let results ← Query.transact [(directionAt object.text).put (some text)]
        ExceptT.mk (pure ((direct object.text arguments).outcome results))) := by
    intro text
    refine congrArg (Program.transact _) (funext fun answer => ?_)
    cases answer <;> rfl
  unfold configureInterface
  rw [run_objectOf_bind selected]
  simp only [asked, query, query_bind, bind_assoc, query_pure, pure_bind]
  congr 2
  funext results
  unfold finish
  simp only [writes]
  split
  · simp only [set]
  · rfl

/-- The requests of the `lldp` command of configuration mode, in the order in
which they are made. -/
def requests (arguments : Arguments) : List Request :=
  let enabled := !arguments.negated
  let given (value : Value) : Option String := if enabled then some value.text else none
  (if arguments.has 0 0 then [setting enableKey (some (boolText enabled))] else []) ++
    (((arguments.get? 1 1).map fun holdTime => setting holdTimeKey (given holdTime)).toList ++
    (((arguments.get? 2 1).map fun interval => setting intervalKey (given interval)).toList ++
    ((((arguments.word? 3 1).bind fun word =>
      advertisements.find? fun advertisement => advertisement.word == word).map
        fun advertisement => setting advertisement.key (some (boolText enabled))).toList ++
    ((arguments.word? 4 1).map fun what =>
      Request.clear (if what = "counters" then countersKey else neighborsKey)).toList)))

theorem query_inTurn_append (first others : List Request) (last : Action Outcome) :
    (Action.query (Request.inTurn (first ++ others)) >>= fun _ => last) =
      (Action.query (Request.inTurn first) >>= fun _ =>
        Action.query (Request.inTurn others) >>= fun _ => last) := by
  rw [inTurn_append, query_bind, bind_assoc]

/-- A step that is taken if there is a value makes the request for that value. -/
theorem query_inTurn_given {α : Type} {step : α → Query Unit} {make : α → Request}
    {whole : Action Outcome} (value? : Option α) (last : Action Outcome)
    (made : ∀ value, step value = (make value).query)
    (taken : whole = match value? with
      | some value => Action.query (step value) >>= fun _ => last
      | none => last) :
    (Action.query (Request.inTurn (value?.map make).toList) >>= fun _ => last) = whole := by
  cases value? with
  | none => exact taken.symm
  | some value =>
      rw [Option.map_some, Option.toList_some, inTurn_singleton, ← made]
      exact taken.symm

theorem configure_eq {arguments : Arguments}
    (known : ∀ word, arguments.word? 3 1 = some word →
      (advertisements.find? fun advertisement => advertisement.word == word).isSome) :
    configure arguments =
      (Action.query (Request.inTurn (requests arguments)) >>= fun _ => pure .proceed) := by
  unfold configure requests
  extract_lets enabled finish clear select interval holdTime given
  -- From the last group of words to the first: a group that is there makes its request.
  have cleared : _ = clear () := query_inTurn_given (arguments.word? 4 1) (finish ())
    (fun what => requestClear_eq (if what = "counters" then countersKey else neighborsKey))
    (by unfold clear; cases arguments.word? 4 1 <;> rfl)
  have selected : _ = select () := query_inTurn_given ((arguments.word? 3 1).bind fun word =>
      advertisements.find? fun advertisement => advertisement.word == word) (clear ())
    (fun advertisement => set_eq advertisement.key (boolText enabled)) (by
      unfold select
      cases chosen : arguments.word? 3 1 with
      | none => rfl
      | some word =>
          obtain ⟨advertisement, found⟩ := Option.isSome_iff_exists.mp (known word chosen)
          simp only [Option.bind_some, found])
  have timed : _ = interval () := query_inTurn_given (arguments.get? 2 1) (select ())
    (fun value => setOrClear_eq intervalKey value enabled)
    (by unfold interval; cases arguments.get? 2 1 <;> rfl)
  have held : _ = holdTime () := query_inTurn_given (arguments.get? 1 1) (interval ())
    (fun value => setOrClear_eq holdTimeKey value enabled)
    (by unfold holdTime; cases arguments.get? 1 1 <;> rfl)
  rw [query_inTurn_append, query_inTurn_append, query_inTurn_append, query_inTurn_append]
  rw [cleared, selected, timed, held]
  cases arguments.has 0 0 with
  | true => simp only [if_true, inTurn_singleton, set_eq]
  | false => rfl

end Lldp

end SwitchShell.Feature
