import SwitchShell.Session
import SwitchShell.Text.Bytes

namespace SwitchShell.Script

/-! Sessions that run from a script.

Each line is shown after the prompt it runs at and is followed by its output,
so that the transcript reads like a session at the terminal.
-/

/-- A session and what it has written so far. -/
structure Run where
  session : Session
  transcript : String := ""
  /-- The number of lines that were run. -/
  count : Nat := 0

def lineFeed : UInt8 := 0x0A

def carriageReturn : UInt8 := 0x0D

/-- Text that ends in a line feed after each line. -/
def writeLines (lines : List String) : String :=
  String.join (lines.map fun line => line ++ "\n")

def Run.after (run : Run) (line : String) (dispatch : Dispatch) (session : Session) : Run :=
  { session
    transcript := run.transcript ++
      writeLines ((run.session.prompt ++ Text.trimRight line) :: dispatch.lines)
    count := run.count + 1 }

/-- Runs lines until one of them ends the session, cannot be read or breaks the
program off.  What is written of a line is written when it has been run. -/
def runLines : List Text.Bytes → Run → Program (Except Fault Unit × Run)
  | [], run => .done (.ok (), run)
  | input :: inputs, run =>
      match Text.ofBytes? input with
      | none => .done (.error (.terminal .unreadableInput), run)
      | some line =>
          Program.andThen
            (fun (dispatch, session) =>
              match dispatch.crash with
              | some fault => .done (.error fault, run)
              | none =>
                  let run := run.after line dispatch session
                  if dispatch.terminate then .done (.ok (), run) else runLines inputs run)
            (run.session.dispatch line)

def run (script : Text.Bytes) (session : Session) : Program (Except Fault Unit × Run) :=
  runLines (Text.splitLines lineFeed carriageReturn script) { session }

end SwitchShell.Script
