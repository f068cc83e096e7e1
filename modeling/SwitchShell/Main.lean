import Std.Async.DNS
import Std.Async.TCP
import Std.Async.Timer
import SwitchShell.Launch

namespace SwitchShell.Main

open Std Std.Async

/-- The wording of a system error.  Its number may come with a minus sign in 32 bits. -/
def systemText (text : String) (code : UInt32) : String :=
  let number := if code < 0x80000000 then code else 0 - code
  text.capitalize ++ " (os error " ++ toString number ++ ")"

/-- The reason of a fault as the system words it. -/
def reasonOf : IO.Error → String
  | .noFileOrDirectory _ code _ => systemText "no such file or directory" code
  | .alreadyExists _ code _ => systemText "file exists" code
  | .permissionDenied _ code _ => systemText "permission denied" code
  | .noSuchThing _ code text => systemText text code
  | .timeExpired code text => systemText text code
  | .resourceVanished code text => systemText text code
  | other => toString other

def troubleOf : IO.Error → Files.Trouble
  | .noFileOrDirectory _ _ _ => .missing
  | .alreadyExists _ _ _ => .occupied
  | fault => .reported (reasonOf fault)

/-- Does something, or gives the reason why it cannot be done. -/
def attempt (action : IO Unit) : IO (Option Files.Trouble) := do
  match ← action.toBaseIO with
  | .ok () => return none
  | .error fault => return some (troubleOf fault)

def contentAt (path : Files.Path) : IO FileContent := do
  let file := (← IO.currentDir) / path.text
  if !(← file.pathExists) then return .missing
  else if ← file.isDir then return .unreadable Files.Trouble.isDirectory.message
  else
    match ← (IO.FS.readBinFile file).toBaseIO with
    | .ok content => return .bytes content.data.toList
    | .error fault => return .unreadable (reasonOf fault)

def files : Files.Access IO where
  read := contentAt
  isDirectory path := do ((← IO.currentDir) / path.text).isDir
  makeDirectory path := attempt (IO.FS.createDir path.text)
  createFile path := attempt (IO.FS.writeBinFile path.text ByteArray.empty)

def configDirectory : IO String := do
  match ← IO.getEnv "XDG_CONFIG_HOME", ← IO.getEnv "HOME" with
  | some directory, _ => return directory
  | none, some home => return home ++ "/.config"
  | none, none => return "."

def socketAddress (address : Net.IPAddr) (port : Nat) : Net.SocketAddress :=
  match address with
  | .v4 addr => .v4 { addr, port := port.toUInt16 }
  | .v6 addr => .v6 { addr, port := port.toUInt16 }

/-- The next piece before a deadline: nothing if time runs out, and an empty
piece at the end of the stream. -/
def nextPiece (socket : TCP.Socket.Client) (deadline : Nat) : Async (Option ByteArray) := do
  let left := deadline - (← IO.monoMsNow)
  let timer ← Selector.sleep (.ofNat left)
  Selectable.one #[
    .case (socket.recvSelector Wire.pieceSize.toUInt64) fun piece =>
      return some (piece.getD ByteArray.empty),
    .case timer fun _ => return none]

/-- Reads until the stream is settled, it ends or time runs out. -/
partial def receive (socket : TCP.Socket.Client) (deadline : Nat) (settled : Wire.Stream → Bool)
    (stream : Wire.Stream) : Async Wire.Stream := do
  if settled stream then return stream
  match ← nextPiece socket deadline with
  | none => return { stream with ending := .silent }
  | some piece =>
      if piece.isEmpty then return stream
      let pieces := stream.pieces ++ [piece.data.toList]
      receive socket deadline settled { stream with pieces }

/-- Connects before a deadline. -/
def connectBefore (socket : TCP.Socket.Client) (address : Net.SocketAddress) (milliseconds : Nat) :
    Async Bool :=
  Async.race
    (do socket.connect address; return true)
    (do Async.sleep (.ofNat milliseconds); return false)

/-- Sends a request to a server that listens on a port. -/
def exchange (host : String) (port milliseconds : Nat) (request : Json)
    (settled : Wire.Stream → Bool) : Async Wire.Connection := do
  let deadline := (← IO.monoMsNow) + milliseconds
  match (← DNS.getAddrInfo host "").toList with
  | [] => return .failed "no such host"
  | address :: _ =>
      let socket ← TCP.Socket.Client.mk
      if ← connectBefore socket (socketAddress address port) milliseconds then
        socket.send request.render.toUTF8
        return .accepted (← receive socket deadline settled { pieces := [] })
      else return .unanswered

def connect (address : Wire.Address) (milliseconds : Nat) (request : Json)
    (settled : Wire.Stream → Bool) : IO Wire.Connection := do
  match address with
  | .unix _ => return .unsupported
  | .tcp host port =>
      match ← (exchange host port milliseconds request settled).block.toBaseIO with
      | .ok connection => return connection
      | .error fault => return .failed (reasonOf fault)

partial def readAll (stream : IO.FS.Stream) (read : ByteArray) : IO ByteArray := do
  let piece ← stream.read 65536
  if piece.isEmpty then return read else readAll stream (read ++ piece)

def environment : IO (Environment IO) := do
  let server ← IO.getEnv "OPSCLI_SERVER"
  let directory ← configDirectory
  return {
    server
    defaultConfig := directory ++ "/ops-cli/config.toml"
    files
    connect
    input := do return (← readAll (← IO.getStdin) ByteArray.empty).data.toList
    terminalTrouble := "no terminal" }

end SwitchShell.Main

def main (arguments : List String) : IO UInt32 := do
  let done ← SwitchShell.Launch.run (← SwitchShell.Main.environment) arguments
  let output ← IO.getStdout
  output.putStr done.output
  output.flush
  if let some complaint := done.complaint then
    IO.eprintln complaint
  return done.code.toUInt32
