namespace SwitchShell

/-- What can go wrong between the shell and the configuration database. -/
inductive DatabaseTrouble where
  | unreachable (address reason : String)
  | unanswered (milliseconds : Nat)
  | timedOut
  | closedEarly
  | malformedResponse
  | malformedResult
  | noResultList
  | reported (text : String)
  | unknownTable (table : String)
  | unsupportedFunction (function : String)
  | unsupportedMutator (mutator : String)
  | duplicateRows (what : String)
  | refused
deriving DecidableEq, Repr

/-- What can be wrong with the settings or with a server address. -/
inductive SettingsTrouble where
  | invalidServer (text : String)
  | invalidPort (text : String)
  | unsupportedMethod (method : String)
  | localSocketsUnsupported
  | malformedFile (path : String)
  | unreadableFile (reason : String)
  | timeoutNotPositive
  | databaseEmpty
  | hostnameEmpty
  | invalidFilter (filter reason : String)
  | logDirectory (reason : String)
  | logFile (reason : String)
  | reported (text : String)
deriving DecidableEq, Repr

/-- What can go wrong at the terminal or on the input of a script. -/
inductive TerminalTrouble where
  | unreadableInput
  | rawMode (reason : String)
  | reported (text : String)
deriving DecidableEq, Repr

/-- Why a command that was understood declines the request. -/
inductive Refusal where
  | noSuch (what : String)
  | internalVlan
  | noVlanSelected
  | vlanMissing (id : Int)
  | noInterfaceSelected
  | reported (text : String)
deriving DecidableEq, Repr

/-- What can be wrong with the description of a command. -/
inductive DefinitionTrouble where
  | emptyPath
  | emptyOption (command : String)
  | reported (text : String)
deriving DecidableEq, Repr

/-- Why a request fails. -/
inductive Fault where
  | noSuchCommand
  | ambiguous
  | incompleteCommand
  | badOption (word : String)
  | optionRequired
  | superfluous
  | invalidValue (word : String)
  | noHelpAvailable
  | duplicateCommand (command : String)
  | definition (trouble : DefinitionTrouble)
  | database (trouble : DatabaseTrouble)
  | settings (trouble : SettingsTrouble)
  | terminal (trouble : TerminalTrouble)
  | refused (refusal : Refusal)
  /-- An index left its range. -/
  | outOfRange
  /-- A number outgrew its type. -/
  | overflow
deriving DecidableEq, Repr

/-- Whole seconds and their fraction without closing zeros, or milliseconds
below one second. -/
def durationText (milliseconds : Nat) : String :=
  if milliseconds = 0 then "0ns"
  else if milliseconds < 1000 then toString milliseconds ++ "ms"
  else
    let fraction := milliseconds % 1000
    let padded := toString (1000 + fraction) |>.toList.drop 1
    let digits := (padded.reverse.dropWhile (· == '0')).reverse
    toString (milliseconds / 1000) ++
      (if digits.isEmpty then "" else "." ++ String.ofList digits) ++ "s"

def DatabaseTrouble.message : DatabaseTrouble → String
  | .unreachable address reason => "cannot connect to " ++ address ++ ": " ++ reason
  | .unanswered milliseconds => "no response within " ++ durationText milliseconds
  | .timedOut => "timed out waiting for response"
  | .closedEarly => "connection closed before a complete response"
  | .malformedResponse => "malformed response: not the expected JSON"
  | .malformedResult => "malformed result: not the expected JSON"
  | .noResultList => "response has no result list"
  | .reported text => text
  | .unknownTable table => "unknown table " ++ table
  | .unsupportedFunction function => "unsupported condition function " ++ function
  | .unsupportedMutator mutator => "unsupported mutator " ++ mutator
  | .duplicateRows what => "duplicate " ++ what ++ " rows"
  | .refused => "connection refused"

def SettingsTrouble.message : SettingsTrouble → String
  | .invalidServer text => "Invalid server '" ++ text ++ "'"
  | .invalidPort text => "Invalid port in server '" ++ text ++ "'"
  | .unsupportedMethod method => "Unsupported connection method '" ++ method ++ "'"
  | .localSocketsUnsupported => "unix sockets are not supported on this platform"
  | .malformedFile path => "Configuration error in " ++ path ++ ":\n  not a valid settings file\n"
  | .unreadableFile reason => "Failed to read config file: " ++ reason
  | .timeoutNotPositive => "server.timeout_ms must be positive"
  | .databaseEmpty => "server.database must not be empty"
  | .hostnameEmpty => "shell.hostname must not be empty"
  | .invalidFilter filter reason => "invalid log filter '" ++ filter ++ "': " ++ reason
  | .logDirectory reason => "cannot create log directory: " ++ reason
  | .logFile reason => "cannot create log file: " ++ reason
  | .reported text => text

def TerminalTrouble.message : TerminalTrouble → String
  | .unreadableInput => "Failed to read input: stream did not contain valid UTF-8"
  | .rawMode reason => "Failed to enable raw mode: " ++ reason
  | .reported text => text

def Refusal.message : Refusal → String
  | .noSuch what => "No such " ++ what ++ "."
  | .internalVlan => "Internal VLANs are allocated by the system."
  | .noVlanSelected => "No VLAN selected."
  | .vlanMissing id => "VLAN " ++ toString id ++ " has not been configured."
  | .noInterfaceSelected => "No interface selected."
  | .reported text => text

def DefinitionTrouble.message : DefinitionTrouble → String
  | .emptyPath => "empty command path"
  | .emptyOption command => "option without tokens in '" ++ command ++ "'"
  | .reported text => text

namespace Fault

/-- The one line that a user reads. -/
def message : Fault → String
  | .noSuchCommand => "% No such command."
  | .ambiguous => "% Ambiguous command."
  | .incompleteCommand => "% Incomplete command."
  | .badOption word => "% Invalid option " ++ word ++ "."
  | .optionRequired => "% Required option missing."
  | .superfluous => "% Too many options: only one of them may be given."
  | .invalidValue word => "% Invalid value " ++ word ++ "."
  | .noHelpAvailable => "% No help available: unknown command."
  | .duplicateCommand command => "% Duplicate command: " ++ command ++ "."
  | .definition trouble => "% Invalid command definition: " ++ trouble.message ++ "."
  | .database trouble => "% Database error: " ++ trouble.message
  | .settings trouble => "% Configuration error: " ++ trouble.message
  | .terminal trouble => "% Terminal error: " ++ trouble.message
  | .refused refusal => "% " ++ refusal.message
  | .outOfRange => "% Index out of range."
  | .overflow => "% Number out of range."

/-- The family that log records name. -/
def category : Fault → String
  | .noSuchCommand | .ambiguous | .incompleteCommand | .noHelpAvailable => "Lookup Error"
  | .badOption _ | .optionRequired | .superfluous | .invalidValue _ => "Option Error"
  | .duplicateCommand _ | .definition _ => "Registration Error"
  | .database _ => "Database Error"
  | .settings _ => "Configuration Error"
  | .terminal _ => "Terminal Error"
  | .refused _ => "Command Error"
  | .outOfRange | .overflow => "Internal Error"

/-- Whether the program breaks off, so that nobody is told of the fault. -/
def isFatal : Fault → Bool
  | .outOfRange | .overflow => true
  | _ => false

end Fault

end SwitchShell
