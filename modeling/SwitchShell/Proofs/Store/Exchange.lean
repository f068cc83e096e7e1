import SwitchShell.Command.Handler

namespace SwitchShell

/-! What a program may come to, whatever the database answers.

`Program.Yields` leaves every answer open.  A backend fixes the answers, so each
of its runs is one of the possible ones.
-/

structure Exchange where
  operations : List Operation
  answer : Answer

namespace Program

variable {α β σ : Type} {exchanges : List Exchange}

/-- The program may end in a value after some exchanges. -/
inductive Yields : Program α → List Exchange → α → Prop where
  | done (value : α) : Yields (.done value) [] value
  | transact {operations : List Operation} {next : Answer → Program α}
      {exchanges : List Exchange} {value : α} (answer : Answer)
      (later : Yields (next answer) exchanges value) :
      Yields (.transact operations next) ({ operations, answer } :: exchanges) value

@[simp] theorem yields_done_iff {value result : α} :
    Yields (.done value) exchanges result ↔ exchanges = [] ∧ result = value := by
  constructor
  · intro yields
    cases yields
    exact ⟨rfl, rfl⟩
  · rintro ⟨rfl, rfl⟩
    exact .done _

theorem yields_andThen_iff {program : Program α} {next : α → Program β} {result : β} :
    Yields (program.andThen next) exchanges result ↔
      ∃ first rest value, exchanges = first ++ rest ∧ Yields program first value ∧
        Yields (next value) rest result := by
  induction program generalizing exchanges with
  | done value =>
      constructor
      · intro yields
        exact ⟨[], exchanges, value, rfl, .done value, yields⟩
      · rintro ⟨first, rest, reached, rfl, begun, ended⟩
        cases begun
        exact ended
  | transact operations continuation ih =>
      constructor
      · intro yields
        cases yields with
        | transact answer later =>
            obtain ⟨first, rest, value, rfl, begun, ended⟩ := (ih answer).mp later
            exact ⟨_ :: first, rest, value, rfl, .transact answer begun, ended⟩
      · rintro ⟨first, rest, value, rfl, begun, ended⟩
        cases begun with
        | transact answer later =>
            exact .transact answer ((ih answer).mpr ⟨_, rest, value, rfl, later, ended⟩)

theorem andThen_assoc {γ : Type} (program : Program α) (next : α → Program β)
    (last : β → Program γ) :
    (program.andThen next).andThen last = program.andThen fun value => (next value).andThen last := by
  induction program with
  | done value => rfl
  | transact operations continuation ih =>
      simp only [andThen]
      congr 1
      funext answer
      exact ih answer

theorem andThen_done (program : Program α) : program.andThen .done = program := by
  induction program with
  | done value => rfl
  | transact operations continuation ih =>
      simp only [andThen]
      congr 1
      funext answer
      exact ih answer

instance : LawfulMonad Program :=
  LawfulMonad.mk' Program andThen_done (fun _ _ => rfl) andThen_assoc

end Program

namespace Query

variable {α β σ : Type}

def answer (backend : Backend σ) (query : Query α) (state : σ) : Except Fault α × σ :=
  Program.run backend (ExceptT.run query) state

@[simp] theorem answer_pure (backend : Backend σ) (value : α) (state : σ) :
    answer backend (pure value) state = (.ok value, state) := rfl

@[simp] theorem answer_of (backend : Backend σ) (result : Except Fault α) (state : σ) :
    answer backend (ExceptT.mk (pure result)) state = (result, state) := rfl

@[simp] theorem answer_throw (backend : Backend σ) (fault : Fault) (state : σ) :
    answer backend (throw fault : Query α) state = (.error fault, state) := rfl

@[simp] theorem answer_transact (backend : Backend σ) (operations : List Operation) (state : σ) :
    answer backend (transact operations) state = backend operations state := rfl

theorem answer_bind (backend : Backend σ) (query : Query α) (next : α → Query β) (state : σ) :
    answer backend (query >>= next) state =
      match answer backend query state with
      | (.ok value, later) => answer backend (next value) later
      | (.error fault, later) => (.error fault, later) := by
  have split : answer backend (query >>= next) state =
      Program.run backend (ExceptT.bindCont next (answer backend query state).1)
        (answer backend query state).2 :=
    Program.run_andThen backend (ExceptT.run query) (ExceptT.bindCont next) state
  rw [split]
  cases found : answer backend query state with
  | mk result later =>
      cases result <;> rfl

variable {exchanges : List Exchange}

@[simp] theorem yields_pure_iff {value : α} {result : Except Fault α} :
    Program.Yields (pure value : Query α).run exchanges result ↔
      exchanges = [] ∧ result = .ok value :=
  Program.yields_done_iff

@[simp] theorem yields_of_iff {value result : Except Fault α} :
    Program.Yields (ExceptT.mk (pure value) : Query α).run exchanges result ↔
      exchanges = [] ∧ result = value :=
  Program.yields_done_iff

@[simp] theorem yields_throw_iff {fault : Fault} {result : Except Fault α} :
    Program.Yields (throw fault : Query α).run exchanges result ↔
      exchanges = [] ∧ result = .error fault :=
  Program.yields_done_iff

@[simp] theorem yields_transact_iff {operations : List Operation} {result : Answer} :
    Program.Yields (transact operations).run exchanges result ↔
      exchanges = [{ operations, answer := result }] := by
  constructor
  · intro yields
    cases yields with
    | transact answer later =>
        obtain ⟨rfl, rfl⟩ := Program.yields_done_iff.mp later
        rfl
  · rintro rfl
    exact .transact result (.done result)

/-- A question after another one is asked only if that one is answered. -/
theorem yields_bind_iff {query : Query α} {next : α → Query β} {result : Except Fault β} :
    Program.Yields (query >>= next).run exchanges result ↔
      (∃ first rest value, exchanges = first ++ rest ∧
        Program.Yields query.run first (.ok value) ∧
        Program.Yields (next value).run rest result) ∨
      (∃ fault, Program.Yields query.run exchanges (.error fault) ∧ result = .error fault) := by
  change Program.Yields (Program.andThen (ExceptT.bindCont next) query.run) _ _ ↔ _
  rw [Program.yields_andThen_iff]
  constructor
  · rintro ⟨first, rest, asked, rfl, begun, ended⟩
    cases asked with
    | ok value => exact .inl ⟨first, rest, value, rfl, begun, ended⟩
    | error fault =>
        obtain ⟨rfl, rfl⟩ := Program.yields_done_iff.mp ended
        rw [List.append_nil]
        exact .inr ⟨fault, begun, rfl⟩
  · rintro (⟨first, rest, value, rfl, begun, ended⟩ | ⟨fault, begun, rfl⟩)
    · exact ⟨first, rest, .ok value, rfl, begun, ended⟩
    · exact ⟨exchanges, [], .error fault, (List.append_nil _).symm, begun, .done _⟩

/-- The names of interfaces come from one question. -/
theorem yields_names_interface_iff {result : Except Fault Names} :
    Program.Yields (names [.interface]).run exchanges result ↔
      ∃ fetched, Program.Yields interfaceNames.run exchanges fetched ∧
        result = fetched.map fun interfaces => { interfaces } := by
  have single : names [.interface] =
      interfaceNames >>= fun interfaces => pure { interfaces } := rfl
  rw [single, yields_bind_iff]
  constructor
  · rintro (⟨first, rest, interfaces, rfl, asked, ended⟩ | ⟨fault, asked, rfl⟩)
    · obtain ⟨rfl, rfl⟩ := yields_pure_iff.mp ended
      rw [List.append_nil]
      exact ⟨.ok interfaces, asked, rfl⟩
    · exact ⟨.error fault, asked, rfl⟩
  · rintro ⟨fetched, asked, rfl⟩
    cases fetched with
    | ok interfaces =>
        exact .inl ⟨exchanges, [], interfaces, (List.append_nil _).symm, asked, .done _⟩
    | error fault => exact .inr ⟨fault, asked, rfl⟩

end Query

end SwitchShell
