import SwitchShell.Proofs.Session.Modes
import SwitchShell.Proofs.Text.Lines
import SwitchShell.Script
import SwitchShell.Store.Memory

namespace SwitchShell.Script

/-! A script is the sequence of its lines.

A script that ends where a line ends can be cut off from what follows it.  Unless
one of its lines ends the session or breaks the program off, the rest runs in the
session it leaves behind and goes on with its transcript; otherwise nothing of the
rest is looked at.
-/

open Session (newSession)

variable {σ : Type} {backend : Backend σ} {input : Text.Bytes} {inputs : List Text.Bytes}
  {line : String} {dispatch : Dispatch} {session after : Session} {state between : σ} {earlier : Run}

namespace Run

@[simp] theorem session_after (run : Run) (line : String) (dispatch : Dispatch)
    (session : Session) : (run.after line dispatch session).session = session := rfl

end Run

/-- One of the lines ends the session, and all those before it were run. -/
def Leaves (backend : Backend σ) : List Text.Bytes → Session → σ → Prop
  | [], _, _ => False
  | input :: inputs, session, state =>
      ∃ line dispatch after between, Text.ofBytes? input = some line ∧
        (session.dispatch line).run backend state = ((dispatch, after), between) ∧
        dispatch.crash = none ∧ (dispatch.terminate = true ∨ Leaves backend inputs after between)

/-- The script runs up to a line that ends the session. -/
def Ends (backend : Backend σ) (script : Text.Bytes) : Session → σ → Prop :=
  Leaves backend (Text.splitLines lineFeed carriageReturn script)

end SwitchShell.Script
