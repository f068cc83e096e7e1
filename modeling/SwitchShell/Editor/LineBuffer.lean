import SwitchShell.Fault
import SwitchShell.Text.Offset

namespace SwitchShell

/-- A line that is being edited.  The cursor counts characters, while cuts are made at
byte offsets. -/
structure LineBuffer where
  text : List Char := []
  cursor : Nat := 0
deriving DecidableEq, Repr

namespace LineBuffer

/-- The offset of the character after the first `count`, or the end of the text. -/
def byteOffset (text : List Char) (count : Nat) : Nat :=
  Text.byteLength (text.take count)

/-- The parts before and after a byte offset. -/
def cut (offset : Nat) (text : List Char) : Except Fault (List Char × List Char) :=
  match Text.cut? offset text with
  | some parts => .ok parts
  | none => .error .outOfRange

def isEmpty (buffer : LineBuffer) : Bool :=
  buffer.text.isEmpty

def length (buffer : LineBuffer) : Nat :=
  buffer.text.length

def line (buffer : LineBuffer) : String :=
  String.ofList buffer.text

/-- The parts before and after the cursor. -/
def atCursor (buffer : LineBuffer) : Except Fault (List Char × List Char) :=
  cut (byteOffset buffer.text buffer.cursor) buffer.text

def beforeCursor (buffer : LineBuffer) : Except Fault String :=
  buffer.atCursor.map fun (before, _) => String.ofList before

/-- Puts a character before the cursor. -/
def insert (c : Char) (buffer : LineBuffer) : Except Fault LineBuffer :=
  match buffer.atCursor with
  | .ok (before, after) => .ok { text := before ++ c :: after, cursor := buffer.cursor + 1 }
  | .error fault => .error fault

/-- Puts characters before the cursor one by one. -/
def insertAll : List Char → LineBuffer → Except Fault LineBuffer
  | [], buffer => .ok buffer
  | c :: rest, buffer =>
      match buffer.insert c with
      | .ok buffer => insertAll rest buffer
      | .error fault => .error fault

/-- Removes the character after the cursor, which must be there. -/
def removeNext (buffer : LineBuffer) : Except Fault LineBuffer :=
  match buffer.atCursor with
  | .ok (before, _ :: after) => .ok { buffer with text := before ++ after }
  | .ok (_, []) => .error .outOfRange
  | .error fault => .error fault

/-- Removes the character before the cursor, if there is one. -/
def backspace (buffer : LineBuffer) : Except Fault LineBuffer :=
  if 0 < buffer.cursor then removeNext { buffer with cursor := buffer.cursor - 1 }
  else .ok buffer

/-- Removes the character after the cursor, if there is one. -/
def delete (buffer : LineBuffer) : Except Fault LineBuffer :=
  if buffer.cursor < buffer.length then buffer.removeNext else .ok buffer

def moveLeft (buffer : LineBuffer) : LineBuffer :=
  { buffer with cursor := buffer.cursor - 1 }

def moveRight (buffer : LineBuffer) : LineBuffer :=
  if buffer.cursor < buffer.length then { buffer with cursor := buffer.cursor + 1 } else buffer

def moveHome (buffer : LineBuffer) : LineBuffer :=
  { buffer with cursor := 0 }

def moveEnd (buffer : LineBuffer) : LineBuffer :=
  { buffer with cursor := buffer.length }

/-- A new text with the cursor at its end. -/
def ofText (text : String) : LineBuffer :=
  { text := text.toList, cursor := text.toList.length }

/-- Goes back over as many characters as there are in a list. -/
def backspaceAll : List Char → LineBuffer → Except Fault LineBuffer
  | [], buffer => .ok buffer
  | _ :: rest, buffer =>
      match buffer.backspace with
      | .ok buffer => backspaceAll rest buffer
      | .error fault => .error fault

/-- Puts `word` in the place of the word in progress before the cursor. -/
def replaceStem (stem word : String) (buffer : LineBuffer) : Except Fault LineBuffer :=
  match buffer.backspaceAll stem.toList with
  | .ok buffer => buffer.insertAll word.toList
  | .error fault => .error fault

end LineBuffer

end SwitchShell
