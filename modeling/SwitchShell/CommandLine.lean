import SwitchShell.Command.Debug
import SwitchShell.Settings.Basic
import SwitchShell.Text.Controls

namespace SwitchShell

structure CommandLine where
  server : Option String := none
  config : Option String := none
  mockDatabase : Bool := false
  headless : Bool := false
  commands : List String := []
  debug : List DebugKey := []
  logFile : Option String := none
deriving DecidableEq, Repr

/-- Why no session is started. -/
inductive Usage where
  | unknownArgument
  | invalidValue
  | argumentConflict
  | tooManyValues
  | help
  | version
deriving DecidableEq, Repr

/-- Help and the version are what was asked for, all else is a fault. -/
def Usage.exitCode : Usage → Nat
  | .help | .version => 0
  | _ => 2

namespace CommandLine

/-- Arguments that stand alone. -/
inductive Flag where
  | mockDatabase
  | headless
  | help
  | version
deriving DecidableEq, Repr

/-- Arguments that take a value. -/
inductive Setting where
  | config
  | command
  | debug
  | logFile
deriving DecidableEq, Repr

def flag? (name : String) : Option Flag :=
  match name with
  | "mock-db" => some .mockDatabase
  | "headless" => some .headless
  | "help" => some .help
  | "version" => some .version
  | _ => none

def setting? (name : String) : Option Setting :=
  match name with
  | "config" => some .config
  | "command" => some .command
  | "debug" => some .debug
  | "log-file" => some .logFile
  | _ => none

/-- What an argument stands for by its form. -/
inductive Form where
  | separator
  | long (name : List Char) (value : Option (List Char))
  | short (letters : List Char)
  | plain
deriving DecidableEq, Repr

/-- The name before the first equals sign and the value after it. -/
def splitValue : List Char → List Char × Option (List Char)
  | [] => ([], none)
  | c :: rest =>
      if c = '=' then ([], some rest)
      else
        let (name, value) := splitValue rest
        (c :: name, value)

def Form.of : List Char → Form
  | ['-', '-'] => .separator
  | '-' :: '-' :: rest =>
      let (name, value) := splitValue rest
      .long name value
  | ['-'] => .plain
  | '-' :: letters => .short letters
  | _ => .plain

/-- A setting whose value is still to come, or has come but is not checked yet. -/
structure Pending where
  setting : Setting
  value : Option String := none
deriving DecidableEq, Repr

/-- How far the arguments have been read. -/
structure Progress where
  line : CommandLine := {}
  pending : Option Pending := none
  /-- All that follows is no option. -/
  separated : Bool := false
deriving DecidableEq, Repr

/-- A path that may be given once and not be empty. -/
def once (earlier : Option String) (value : String) : Except Usage (Option String) :=
  if earlier.isSome then .error .argumentConflict
  else if value.isEmpty then .error .invalidValue
  else .ok (some value)

def assign (setting : Setting) (value : String) (line : CommandLine) : Except Usage CommandLine :=
  match setting with
  | .config => (once line.config value).map fun config => { line with config }
  | .logFile => (once line.logFile value).map fun logFile => { line with logFile }
  | .command => .ok { line with commands := line.commands ++ [value] }
  | .debug =>
      match DebugKey.ofText? value with
      | some key => .ok { line with debug := line.debug ++ [key] }
      | none => .error .invalidValue

def raise (flag : Flag) (line : CommandLine) : Except Usage CommandLine :=
  match flag with
  | .help => .error .help
  | .version => .error .version
  | .mockDatabase =>
      if line.mockDatabase then .error .argumentConflict else .ok { line with mockDatabase := true }
  | .headless =>
      if line.headless then .error .argumentConflict else .ok { line with headless := true }

/-- Checks the setting that is pending. -/
def settle (progress : Progress) : Except Usage Progress :=
  match progress.pending with
  | none => .ok progress
  | some { value := none, .. } => .error .invalidValue
  | some { setting, value := some value } =>
      (assign setting value progress.line).map fun line => { progress with line, pending := none }

/-- A setting with the value it has in the same argument, if any. -/
def takeSetting (setting : Setting) (value : Option String) (progress : Progress) :
    Except Usage Progress := do
  let progress ← settle progress
  match value with
  | some value => return { progress with line := ← assign setting value progress.line }
  | none => return { progress with pending := some { setting } }

def takeFlag (flag : Flag) (progress : Progress) : Except Usage Progress := do
  let progress ← settle progress
  return { progress with line := ← raise flag progress.line }

def takeLong (name : String) (value : Option (List Char)) (progress : Progress) :
    Except Usage Progress :=
  match setting? name, flag? name with
  | some setting, _ => takeSetting setting (value.map String.ofList) progress
  | none, some flag => if value.isSome then .error .tooManyValues else takeFlag flag progress
  | none, none => .error .unknownArgument

/-- The value in the argument of a short option, perhaps after an equals sign. -/
def attached : List Char → Option String
  | [] => none
  | '=' :: value => some (String.ofList value)
  | value => some (String.ofList value)

def takeShort : List Char → Progress → Except Usage Progress
  | 'c' :: value, progress => takeSetting .command (attached value) progress
  | 'h' :: _, progress => takeFlag .help progress
  | 'V' :: _, progress => takeFlag .version progress
  | _, _ => .error .unknownArgument

/-- The one argument that is no option names the server. -/
def takePlain (argument : String) (progress : Progress) : Except Usage Progress :=
  if progress.line.server.isSome then .error .unknownArgument
  else do
    let progress ← settle progress
    return { progress with line := { progress.line with server := some argument } }

/-- The value of the setting that waits for one, or else the server. -/
def takeValue (argument : String) (progress : Progress) : Except Usage Progress :=
  match progress.pending with
  | some { setting, value := none } =>
      .ok { progress with pending := some { setting, value := some argument } }
  | _ => takePlain argument progress

def take (argument : String) (progress : Progress) : Except Usage Progress :=
  if progress.separated then takePlain argument progress
  else
    match Form.of argument.toList with
    | .separator => .ok { progress with separated := true }
    | .long name value => takeLong (String.ofList name) value progress
    | .short letters => takeShort letters progress
    | .plain => takeValue argument progress

def takeAll : List String → Progress → Except Usage Progress
  | [], progress => settle progress
  | argument :: arguments, progress =>
      match take argument progress with
      | .ok progress => takeAll arguments progress
      | .error usage => .error usage

def parse (arguments : List String) : Except Usage CommandLine :=
  (takeAll arguments {}).map Progress.line

/-- The session runs from a script. -/
def isHeadless (line : CommandLine) : Bool :=
  line.headless || !line.commands.isEmpty

/-- Puts what the arguments say over the settings. -/
def apply (line : CommandLine) (settings : Settings) : Settings :=
  { settings with
    server := { settings.server with address := line.server.getD settings.server.address }
    log := { settings.log with file := line.logFile.or settings.log.file } }

def versionText : String := "opscli 0.1.0\n"

/-- The last line that is said about arguments that cannot be read. -/
def usageHint : String := "For more information, try '--help'."

def explanationColumn : Nat := 12

/-- The server the environment names, as the help page shows it.  Its lines
begin where explanations do.  The page is free of control sequences; one that is
still open after the server ends with the paragraph. -/
def shownServer (server : String) : String :=
  let lines := Text.replaceChar '\n' ("\n" ++ Text.spaces explanationColumn) server
  Text.plain (lines ++ "]\n\n")

def helpText (server : Option String) : String :=
  "Modal configuration shell for OpenSwitch devices\n\n" ++
  "Usage: opscli [OPTIONS] [SERVER]\n\n" ++
  "Arguments:\n" ++
  "  [SERVER]  Database server: tcp:HOST:PORT or unix:PATH [env: OPSCLI_SERVER=" ++
    shownServer (server.getD "") ++
  "Options:\n" ++
  "      --config <PATH>    Config file path\n" ++
  "      --mock-db          Use an in-memory database instead of a server\n" ++
  "      --headless         Run without the line editor, reading commands from --command or stdin\n" ++
  "  -c, --command <LINE>   Command to run (repeatable); implies --headless\n" ++
  "      --debug <KEY>      Enable a debug target at startup (repeatable) " ++
    "[possible values: cli, ovsdb]\n" ++
  "      --log-file <PATH>  Write logs to this file instead of stderr\n" ++
  "  -h, --help             Print help\n" ++
  "  -V, --version          Print version\n"

end CommandLine

end SwitchShell
