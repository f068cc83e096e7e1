import SwitchShell.Fault
import SwitchShell.Store.Operation

namespace SwitchShell

/-! Programs that talk to a database.

A program is a tree: it is done, or it sends a transaction and goes on with the
answer.  What the transactions do is up to the backend that runs the program.
-/

/-- One result per operation, or the reason why the transaction failed. -/
abbrev Answer := Except Fault (List OperationResult)

inductive Program (α : Type) where
  | done (value : α)
  | transact (operations : List Operation) (next : Answer → Program α)

/-- Answers transactions in a state of its own. -/
abbrev Backend (σ : Type) := List Operation → σ → Answer × σ

namespace Program

/-- Goes on with the value of a program. -/
def andThen (next : α → Program β) : Program α → Program β
  | .done value => next value
  | .transact operations rest => .transact operations fun answer => andThen next (rest answer)

instance : Monad Program where
  pure := .done
  bind program next := andThen next program

def send (operations : List Operation) : Program Answer :=
  .transact operations .done

/-- Lets a backend answer every transaction. -/
def run (backend : Backend σ) : Program α → σ → α × σ
  | .done value, state => (value, state)
  | .transact operations next, state =>
      match backend operations state with
      | (answer, state) => run backend (next answer) state

/-- Lets an effect answer every transaction. -/
def runIn [Monad m] (transact : List Operation → m Answer) : Program α → m α
  | .done value => pure value
  | .transact operations next => do
      let answer ← transact operations
      runIn transact (next answer)

@[simp] theorem run_done (backend : Backend σ) (value : α) (state : σ) :
    run backend (.done value) state = (value, state) := rfl

theorem run_andThen (backend : Backend σ) (program : Program α) (next : α → Program β)
    (state : σ) :
    run backend (program.andThen next) state =
      run backend (next (run backend program state).1) (run backend program state).2 := by
  induction program generalizing state with
  | done value => rfl
  | transact operations rest ih =>
      simp only [andThen, run]
      exact ih _ _

end Program

end SwitchShell
