import SwitchShell.Fault
import SwitchShell.Json.Reader

namespace SwitchShell.Wire

/-! Documents from a stream of bytes.

The bytes arrive in pieces.  A document is complete as soon as the bytes at
hand show it; the bytes after it are kept for the next one.
-/

open Text (Bytes byteOf)

/-- What happens after the last piece. -/
inductive Ending where
  | closed
  | silent
deriving DecidableEq, Repr

def Ending.fault : Ending → Fault
  | .closed => .database .closedEarly
  | .silent => .database .timedOut

/-- Bytes at hand and pieces to come. -/
structure Stream where
  buffer : Bytes := []
  pieces : List Bytes
  ending : Ending := .closed
deriving Repr

/-- White space between documents, which unlike that inside them has the form feed. -/
def isGap (byte : UInt8) : Bool :=
  Json.isBlankByte byte || byte = 0x0C

/-- Arrays, objects and texts show where they end. -/
def showsEnd (byte : UInt8) : Bool :=
  byte = byteOf '[' || byte = byteOf '\x7b' || byte = byteOf '"'

/-- What may stand right after a value that does not show its end. -/
def mayFollow (byte : UInt8) : Bool :=
  Json.isBlankByte byte || showsEnd byte || byte = byteOf ']' || byte = byteOf '\x7d' ||
    byte = byteOf ',' || byte = byteOf ':'

/-- The document in front, if the bytes hold a complete one. -/
def takeDocument (buffer : Bytes) : Json.Reading Json :=
  match buffer.dropWhile isGap with
  | [] => .incomplete
  | first :: later =>
      match Json.read (first :: later) with
      | .complete value rest =>
          if showsEnd first || rest.head?.all mayFollow then .complete value rest else .malformed
      | other => other

/-- Takes the next document; what cannot be read stays at hand. -/
def nextDocument (ending : Ending) : Bytes → List Bytes → Except Fault Json × Bytes × List Bytes
  | buffer, pieces =>
      match takeDocument buffer with
      | .complete value rest => (.ok value, rest, pieces)
      | .malformed => (.error (.database .malformedResponse), buffer, pieces)
      | .incomplete =>
          match pieces with
          | [] => (.error ending.fault, buffer, [])
          | piece :: pieces => nextDocument ending (buffer ++ piece) pieces
termination_by structural _ pieces => pieces

/-- Cuts a run of bytes into pieces of at most `size` bytes. -/
def cut (size : Nat) : Nat → Bytes → List Bytes
  | 0, _ => []
  | fuel + 1, input =>
      if input.isEmpty then []
      else input.take size :: cut size fuel (input.drop size)

/-- The most bytes that arrive at once. -/
def pieceSize : Nat := 4096

namespace Stream

/-- A stream of chunks; each arrives in as few pieces as it can. -/
def ofChunks (chunks : List Bytes) (ending : Ending) : Stream :=
  { pieces := chunks.flatMap fun chunk => cut pieceSize chunk.length chunk, ending }

def next (stream : Stream) : Except Fault Json × Stream :=
  match nextDocument stream.ending stream.buffer stream.pieces with
  | (document, buffer, pieces) => (document, { stream with buffer, pieces })

def size (stream : Stream) : Nat :=
  stream.buffer.length + stream.pieces.flatten.length

end Stream

end SwitchShell.Wire
