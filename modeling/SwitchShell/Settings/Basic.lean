import SwitchShell.Fault
import SwitchShell.Files.Access
import SwitchShell.Toml.Reader

namespace SwitchShell

structure ServerSettings where
  address : String := "unix:/var/run/openvswitch/db.sock"
  database : String := "OpenSwitch"
  /-- How long a transaction may take, in milliseconds. -/
  timeout : Nat := 1000
deriving DecidableEq, Repr

structure ShellSettings where
  /-- The name in the prompt when the database knows none. -/
  hostname : String := "OpenSwitch"
  /-- What is shown at the start of a session; nothing if it is empty. -/
  banner : String := "OpenSwitch shell"
  historySize : Nat := 100
deriving DecidableEq, Repr

structure LogSettings where
  filter : String := "warn"
  /-- Without a file, records go to the standard error stream. -/
  file : Option String := none
deriving DecidableEq, Repr

structure Settings where
  server : ServerSettings := {}
  shell : ShellSettings := {}
  log : LogSettings := {}
deriving DecidableEq, Repr

namespace Settings

/-- The fields of a section.  It is a table, or an array of the fields in their
order; a date has none of them. -/
def fields? (names : List String) : Toml → Option (List (Option Toml))
  | .table _ members => some (names.map fun name => Dictionary.find? name members)
  | .inlineTable members => some (names.map fun name => Dictionary.find? name members)
  | .array items => some ((List.range names.length).map fun place => items[place]?)
  | .dateTime => some (names.map fun _ => none)
  | _ => none

def text? (default : String) : Option Toml → Option String
  | none => some default
  | some (.string text) => some text
  | some _ => none

/-- A field that is a number without a sign. -/
def number? (default : Nat) : Option Toml → Option Nat
  | none => some default
  | some (.integer value) => if 0 ≤ value then some value.toNat else none
  | some _ => none

/-- A field that is a text or missing. -/
def path? : Option Toml → Option (Option String)
  | none => some none
  | some (.string text) => some (some text)
  | some _ => none

/-- A section, or its default if there is none. -/
def readSection (default : α) (names : List String) (read : List (Option Toml) → Option α) :
    Option Toml → Option α
  | none => some default
  | some value => (fields? names value).bind read

def server? : Option Toml → Option ServerSettings :=
  readSection {} ["address", "database", "timeout_ms"] fun
    | [address, database, timeout] => do
        let default : ServerSettings := {}
        return {
          address := ← text? default.address address
          database := ← text? default.database database
          timeout := ← number? default.timeout timeout }
    | _ => none

def shell? : Option Toml → Option ShellSettings :=
  readSection {} ["hostname", "motd", "history_size"] fun
    | [hostname, banner, historySize] => do
        let default : ShellSettings := {}
        return {
          hostname := ← text? default.hostname hostname
          banner := ← text? default.banner banner
          historySize := ← number? default.historySize historySize }
    | _ => none

def log? : Option Toml → Option LogSettings :=
  readSection {} ["filter", "file"] fun
    | [filter, file] => do
        let default : LogSettings := {}
        return { filter := ← text? default.filter filter, file := ← path? file }
    | _ => none

/-- The settings a document makes; sections and fields it does not know are no matter. -/
def ofDocument? (document : Toml.Members) : Option Settings := do
  return {
    server := ← server? (Dictionary.find? "server" document)
    shell := ← shell? (Dictionary.find? "shell" document)
    log := ← log? (Dictionary.find? "log" document) }

/-- Refuses settings that no session could use. -/
def validate (settings : Settings) : Except Fault Unit :=
  if settings.server.timeout = 0 then .error (.settings .timeoutNotPositive)
  else if settings.server.database.isEmpty then .error (.settings .databaseEmpty)
  else if settings.shell.hostname.isEmpty then .error (.settings .hostnameEmpty)
  else .ok ()

def parse (path text : String) : Except Fault Settings :=
  match (Toml.parse? text).bind ofDocument? with
  | none => .error (.settings (.malformedFile path))
  | some settings => settings.validate.map fun _ => settings

/-- The settings in a file; a missing file makes none. -/
def load (path : String) : FileContent → Except Fault Settings
  | .missing => .ok {}
  | .unreadable reason => .error (.settings (.unreadableFile reason))
  | .bytes content =>
      match Text.ofBytes? content with
      | none =>
          .error (.settings (.unreadableFile "stream did not contain valid UTF-8"))
      | some text => parse path text

end Settings

end SwitchShell
