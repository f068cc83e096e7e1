import SwitchShell.Store.Program

namespace SwitchShell

/-- The state of a backend that numbers its transactions from zero and enters them. -/
structure Journal (σ : Type) where
  state : σ
  /-- The number of the next transaction. -/
  next : Nat := 0
  /-- The transactions so far, the last one first. -/
  entries : List (List Operation) := []

namespace Journal

/-- Answers a transaction unless it falls into an outage. -/
def transact (outage : Nat → Bool) (fault : Fault) (backend : Backend σ) : Backend (Journal σ) :=
  fun operations journal =>
    let entered := { journal with next := journal.next + 1, entries := operations :: journal.entries }
    if outage journal.next then (.error fault, entered)
    else
      match backend operations journal.state with
      | (answer, state) => (answer, { entered with state })

end Journal

end SwitchShell
