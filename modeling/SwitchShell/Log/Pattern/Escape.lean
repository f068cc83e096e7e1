import SwitchShell.Text.Blank
import SwitchShell.Text.Numeral

namespace SwitchShell.Log.Pattern

/-- A reader takes a value off the front of the characters. -/
abbrev Reader (α : Type) := List Char → Option (α × List Char)

/-- What the letters of a group can change. -/
structure Mode where
  /-- White space and comments are skipped. -/
  verbose : Bool := false
  /-- Letters stand for both of their cases. -/
  caseless : Bool := false
  /-- Characters are those of Unicode and not bytes. -/
  unicode : Bool := true
deriving DecidableEq, Repr

namespace Mode

def set (letter : Char) (on : Bool) (mode : Mode) : Mode :=
  match letter with
  | 'x' => { mode with verbose := on }
  | 'i' => { mode with caseless := on }
  | 'u' => { mode with unicode := on }
  | _ => mode

/-- Turns on the letters before a minus sign and off those after it. -/
def change (mode : Mode) (letters : List Char) : Mode :=
  let on := letters.takeWhile (· ≠ '-')
  let off := letters.dropWhile (· ≠ '-')
  off.foldl (fun mode letter => mode.set letter false)
    (on.foldl (fun mode letter => mode.set letter true) mode)

end Mode

/-- Skips white space and comments, which end with their line. -/
def skipBlanks (inComment : Bool) : List Char → List Char
  | [] => []
  | c :: rest =>
      if inComment then skipBlanks (c ≠ '\n') rest
      else if Text.isBlank c then skipBlanks false rest
      else if c = '#' then skipBlanks true rest
      else c :: rest

/-- The characters from the next one that counts. -/
def Mode.skip (mode : Mode) (input : List Char) : List Char :=
  if mode.verbose then skipBlanks false input else input

/-- The next character that counts, past one hash sign at most. -/
def Mode.peek (mode : Mode) (input : List Char) : Option Char :=
  if mode.verbose then
    match input.dropWhile Text.isBlank with
    | '#' :: rest => (rest.dropWhile Text.isBlank).head?
    | rest => rest.head?
  else input.head?

/-- A character that stands for itself.  One that is written with two
hexadecimal digits stands for a byte if the pattern is not one of Unicode. -/
structure Literal where
  char : Char
  asByte : Bool := false
deriving DecidableEq, Repr

def Literal.isAscii (literal : Literal) : Bool :=
  literal.char ≤ '\x7f'

/-- What one or more characters of a pattern stand for. -/
inductive Symbol where
  | literal (literal : Literal)
  /-- Digits, white space or the characters of words, or all but those. -/
  | set (negated : Bool)
  /-- The edge of a word, or a place that is none. -/
  | edge
  | anchor
deriving DecidableEq, Repr

def hexValue? (c : Char) : Option Nat :=
  if c.isDigit then some (Text.digitValue c)
  else if 'a' ≤ c ∧ c ≤ 'f' then some (c.toNat - 'a'.toNat + 10)
  else if 'A' ≤ c ∧ c ≤ 'F' then some (c.toNat - 'A'.toNat + 10)
  else none

/-- The number written by some hexadecimal digits. -/
def readCode (mode : Mode) : Nat → Nat → Reader Nat
  | 0, code, input => some (code, input)
  | count + 1, code, input =>
      match mode.skip input with
      | [] => none
      | c :: rest => (hexValue? c).bind fun digit => readCode mode count (16 * code + digit) rest

/-- A character written by its number. -/
def readCoded (mode : Mode) (count : Nat) : Reader Symbol := fun input =>
  (readCode mode count 0 input).bind fun (code, rest) =>
    if code.isValidChar then
      some (.literal { char := Char.ofNat code, asByte := count = 2 }, rest)
    else none

/-- ASCII characters without a meaning of their own stand for themselves. -/
def isPunctuation (c : Char) : Bool :=
  c ≤ '\x7f' && !c.isAlphanum && c ≠ '<' && c ≠ '>'

/-- The control character a letter names. -/
def controlOf : Char → Char
  | 'a' => '\x07'
  | 'f' => '\x0c'
  | 't' => '\t'
  | 'n' => '\n'
  | 'r' => '\r'
  | _ => '\x0b'

/-- What stands after a backslash. -/
def readEscape (mode : Mode) : Reader Symbol
  | [] => none
  | c :: rest =>
      match c with
      | 'x' => readCoded mode 2 rest
      | 'u' => readCoded mode 4 rest
      | 'U' => readCoded mode 8 rest
      | 'd' | 's' | 'w' => some (.set false, rest)
      | 'D' | 'S' | 'W' => some (.set true, rest)
      | 'a' | 'f' | 't' | 'n' | 'r' | 'v' => some (.literal { char := controlOf c }, rest)
      | 'A' | 'z' => some (.anchor, rest)
      | 'b' | 'B' | '<' | '>' => some (.edge, rest)
      | _ => if isPunctuation c then some (.literal { char := c }, rest) else none

end SwitchShell.Log.Pattern
