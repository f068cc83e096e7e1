import SwitchShell.Fault
import SwitchShell.Text.Numeral
import SwitchShell.Text.Words

namespace SwitchShell.Wire

inductive Address where
  | tcp (host : String) (port : Nat)
  | unix (path : String)
deriving DecidableEq, Repr

namespace Address

def maxPort : Nat := 65535

/-- The parts before and after the first `mark`. -/
def splitFirst? (mark : Char) : List Char → Option (List Char × List Char)
  | [] => none
  | c :: rest =>
      if c = mark then some ([], rest)
      else (splitFirst? mark rest).map fun (before, after) => (c :: before, after)

/-- The parts before and after the last `mark`. -/
def splitLast? (mark : Char) : List Char → Option (List Char × List Char)
  | [] => none
  | c :: rest =>
      match splitLast? mark rest with
      | some (before, after) => some (c :: before, after)
      | none => if c = mark then some ([], rest) else none

/-- Reads an address.  The method ends at the first colon, the port of a `tcp`
address begins after the last one. -/
def parse (text : String) : Except Fault Address :=
  match splitFirst? ':' text.toList with
  | none => .error (.settings (.invalidServer text))
  | some (method, rest) =>
      if String.ofList method = "tcp" then
        match splitLast? ':' rest with
        | none => .error (.settings (.invalidServer text))
        | some (host, port) =>
            match Text.unsigned? maxPort (String.ofList port) with
            | none => .error (.settings (.invalidPort text))
            | some port =>
                if host.isEmpty then .error (.settings (.invalidServer text))
                else .ok (.tcp (String.ofList host) port)
      else if String.ofList method = "unix" then
        if rest.isEmpty then .error (.settings (.invalidServer text))
        else .ok (.unix (String.ofList rest))
      else .error (.settings (.unsupportedMethod (String.ofList method)))

def render : Address → String
  | .tcp host port => "tcp:" ++ host ++ ":" ++ toString port
  | .unix path => "unix:" ++ path

end Address

end SwitchShell.Wire
