import SwitchShell.Text.Bytes

namespace SwitchShell.Text

/-- Where the reading of a sequence stands. -/
inductive ControlState where
  | ground
  /-- After the escape character. -/
  | escape
  | escapeIntermediate
  /-- A control sequence, up to its final letter. -/
  | control
  /-- The parts of a device control string before its own text. -/
  | deviceEntry
  | deviceParameters
  | deviceIntermediate
  /-- The text of a string that a byte `9C` ends. -/
  | string
  /-- A command to the system, which the bell character ends. -/
  | command
deriving DecidableEq, Repr

namespace ControlState

/-- A letter that ends a sequence of one kind or shows its kind. -/
def isFinal (c : Char) : Bool :=
  '@' ≤ c && c ≤ '~'

def isIntermediate (c : Char) : Bool :=
  ' ' ≤ c && c ≤ '/'

def isParameter (c : Char) : Bool :=
  '0' ≤ c && c ≤ '?'

def afterEscape (c : Char) : ControlState :=
  if c = '[' then .control
  else if c = ']' then .command
  else if c = 'P' then .deviceEntry
  else if c = 'X' ∨ c = '^' ∨ c = '_' then .string
  else if isIntermediate c then .escapeIntermediate
  else if isParameter c || isFinal c then .ground
  else .escape

/-- The state after an ASCII character. -/
def next (c : Char) (state : ControlState) : ControlState :=
  if c = '\x18' ∨ c = '\x1a' then .ground
  else if c = '\x1b' then .escape
  else
    match state with
    | .ground => .ground
    | .escape => afterEscape c
    | .escapeIntermediate => if isParameter c || isFinal c then .ground else .escapeIntermediate
    | .control => if isFinal c then .ground else .control
    | .deviceEntry =>
        if isFinal c then .string
        else if isIntermediate c then .deviceIntermediate
        else if isParameter c then .deviceParameters
        else .deviceEntry
    | .deviceParameters =>
        if isFinal c || ('<' ≤ c && c ≤ '?') then .string
        else if isIntermediate c then .deviceIntermediate
        else .deviceParameters
    | .deviceIntermediate =>
        if isFinal c || isParameter c then .string else .deviceIntermediate
    | .string => .string
    | .command => if c = '\x07' then .ground else .command

/-- The state after a character beyond ASCII, which counts by its bytes. -/
def nextWide (c : Char) (state : ControlState) : ControlState :=
  if state = .string ∧ 0x9C ∈ bytes (String.singleton c) then .ground else state

/-- Tabs and line ends count as text in these states. -/
def keepsSpace : ControlState → Bool
  | .ground | .escape | .escapeIntermediate | .control => true
  | _ => false

end ControlState

/-- Tab, line feed, form feed and carriage return. -/
def isSpacing (c : Char) : Bool :=
  c = '\t' || c = '\n' || c = '\x0c' || c = '\r'

/-- What a terminal prints when no sequence is open. -/
def isPrinted (c : Char) : Bool :=
  (' ' ≤ c && c ≠ '\x7f') || isSpacing c

/-- The text in the characters that follow a state.  `printing` says that all is
text up to the next control character. -/
def plainFrom : Bool → ControlState → List Char → List Char
  | _, _, [] => []
  | printing, state, c :: rest =>
      if '\x7f' < c then
        if printing || state = .ground then c :: plainFrom true .ground rest
        else plainFrom false (state.nextWide c) rest
      else if (printing || state = .ground) && isPrinted c then c :: plainFrom true state rest
      else if state.keepsSpace && isSpacing c then c :: plainFrom true state rest
      else plainFrom false (state.next c) rest

def plain (text : String) : String :=
  String.ofList (plainFrom false .ground text.toList)

end SwitchShell.Text
