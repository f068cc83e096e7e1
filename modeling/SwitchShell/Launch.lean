import SwitchShell.CommandLine
import SwitchShell.Feature.Builtin
import SwitchShell.Files.Access
import SwitchShell.Log.Filter
import SwitchShell.Script
import SwitchShell.Store.Memory
import SwitchShell.Wire.Client

namespace SwitchShell

/-- What the program finds around it. -/
structure Environment (m : Type → Type) where
  /-- The server to use if the arguments name none. -/
  server : Option String
  defaultConfig : String
  files : Files.Access m
  /-- Sends a request to a server and reads until the stream is settled, for as
  many milliseconds at most as are given. -/
  connect : Wire.Address → Nat → Json → (Wire.Stream → Bool) → m Wire.Connection
  input : m Text.Bytes
  /-- Why keys cannot be read one by one. -/
  terminalTrouble : String

structure Exit where
  code : Nat := 0
  output : String := ""
  /-- What is said about a fault. -/
  complaint : Option String := none
deriving DecidableEq, Repr

namespace Launch

def failed (output complaint : String) : Exit :=
  { code := 1, output, complaint := some complaint }

/-- The program breaks off at what it must never do. -/
def broken : Exit := { code := 101 }

/-- What a filter that cannot be used ends in. -/
def ofFilterTrouble (filter : String) : Log.FilterTrouble → Exit
  | .brokenCharacter => broken
  | trouble => failed "" (Fault.settings (.invalidFilter filter trouble.message)).message

/-- The settings of the file with those of the arguments. -/
def settings (line : CommandLine) (path : String) (content : FileContent) : Except Exit Settings :=
  match Settings.load path content with
  | .error fault => .error (failed "" ("loading " ++ path ++ ": " ++ fault.message))
  | .ok settings =>
      let settings := line.apply settings
      match settings.validate with
      | .error fault => .error (failed "" fault.message)
      | .ok () =>
          match Log.filterTrouble? settings.log.filter with
          | some trouble => .error (ofFilterTrouble settings.log.filter trouble)
          | none => .ok settings

/-- Begins a new log file in a directory that is made if need be. -/
def openLog [Monad m] (files : Files.Access m) (text : String) : m (Option SettingsTrouble) := do
  let path := Files.Path.parse text
  match ← files.makeParent path with
  | some trouble => return some (.logDirectory trouble.message)
  | none => return (← files.createFile path).map fun trouble => .logFile trouble.message

def debugKeys (line : CommandLine) (settings : Settings) : DebugKeys :=
  line.debug.foldl (fun keys key => keys.set true key) { base := settings.log.filter }

/-- Asks the database for the name of the device. -/
def openSession (line : CommandLine) (settings : Settings) : Program (Except String Session) :=
  Program.andThen
    (fun
      | .error fault =>
          .done (.error ("reading hostname from the configuration database: " ++ fault.message))
      | .ok hostname =>
          .done (.ok {
            registry := Feature.builtin
            debug := debugKeys line settings
            hostname := hostname.getD settings.shell.hostname }))
    Query.hostname.run

/-- What a script run ends in. -/
def ofRun (outcome : Except Fault Unit) (run : Script.Run) : Exit :=
  match outcome with
  | .ok () => { output := run.transcript }
  | .error fault =>
      if fault.isFatal then { broken with output := run.transcript }
      else failed run.transcript fault.message

def runScript (script : Text.Bytes) (session : Session) : Program Exit :=
  Program.andThen (fun (outcome, run) => .done (ofRun outcome run)) (Script.run script session)

/-- A session at the terminal, which begins with the banner. -/
def runTerminal (trouble : String) (settings : Settings) : Exit :=
  let banner := settings.shell.banner
  failed (if banner.isEmpty then "" else banner ++ "\n")
    (Fault.terminal (.rawMode trouble)).message

/-- The lines of the `-c` arguments as one script. -/
def commandScript (line : CommandLine) : Text.Bytes :=
  Text.bytes (String.intercalate "\n" line.commands)

/-- Holds the session over a database. -/
def converse [Monad m] (environment : Environment m) (line : CommandLine) (settings : Settings)
    (transact : List Operation → StateT σ m Answer) : StateT σ m Exit := do
  match ← (openSession line settings).runIn transact with
  | .error complaint => return failed "" complaint
  | .ok session =>
      if !line.isHeadless then return runTerminal environment.terminalTrouble settings
      else if line.commands.isEmpty then
        let script ← environment.input
        (runScript script session).runIn transact
      else (runScript (commandScript line) session).runIn transact

/-- Runs the program with settings that can be used. -/
def serve [Monad m] (environment : Environment m) (line : CommandLine) (settings : Settings) :
    m Exit := do
  if line.mockDatabase then
    let transact (operations : List Operation) : StateT Memory m Answer :=
      fun memory => pure (memory.transact operations)
    (converse environment line settings transact).run' Memory.initial
  else
    match Wire.Address.parse settings.server.address with
    | .error fault => return failed "" fault.message
    | .ok address =>
        let client : Wire.Client :=
          { address, database := settings.server.database, timeout := settings.server.timeout }
        let transact := Wire.Client.transactIn (environment.connect address settings.server.timeout)
        (converse environment line settings transact).run' client

/-- Runs the program with arguments that can be read. -/
def start [Monad m] (environment : Environment m) (line : CommandLine) : m Exit := do
  let path := line.config.getD environment.defaultConfig
  match settings line path (← environment.files.read (.parse path)) with
  | .error done => return done
  | .ok settings =>
      let trouble ← match settings.log.file with
        | some file => openLog environment.files file
        | none => pure none
      match trouble with
      | some trouble => return failed "" (Fault.settings trouble).message
      | none => serve environment line settings

def run [Monad m] (environment : Environment m) (arguments : List String) : m Exit :=
  match CommandLine.parse arguments with
  | .error .help => return { output := CommandLine.helpText environment.server }
  | .error .version => return { output := CommandLine.versionText }
  | .error usage => return { code := usage.exitCode, complaint := some CommandLine.usageHint }
  | .ok line => start environment { line with server := line.server.or environment.server }

end Launch

end SwitchShell
