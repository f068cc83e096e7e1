import SwitchShell.Log.Pattern.Class
import SwitchShell.Text.Alphanumeric

namespace SwitchShell.Log.Pattern

/-! Which regular expressions can be used as the value of a field.

An expression is read once from left to right.  Of what has been read only the
depth of its nesting is kept, and what may still be repeated or closed.  Counts
of repetitions, sets of Unicode and looking ahead or behind are not known.
-/

/-- Something a pattern matches with.  A change of mode cannot be repeated. -/
structure Part where
  depth : Nat := 0
  repeatable : Bool := true
deriving DecidableEq, Repr

/-- A group whose end is not reached. -/
structure Group where
  /-- The mode after the group. -/
  outer : Mode := {}
  /-- How deep the branches before the last bar nest. -/
  branches : List Nat := []
  /-- The parts after it, the last one first. -/
  parts : List Part := []
deriving DecidableEq, Repr

namespace Group

def add (part : Part) (group : Group) : Group :=
  { group with parts := part :: group.parts }

def branchDepth (group : Group) : Nat :=
  depthOfAll (group.parts.map Part.depth)

/-- A bar ends a branch. -/
def divide (group : Group) : Group :=
  { group with branches := group.branchDepth :: group.branches, parts := [] }

def depth (group : Group) : Nat :=
  depthOfAll (group.branchDepth :: group.branches)

/-- The last part once more nested by its repetition. -/
def repeatLast? (group : Group) : Option Group :=
  match group.parts with
  | [] => none
  | part :: parts =>
      if part.repeatable then some { group with parts := { depth := part.depth + 1 } :: parts }
      else none

end Group

/-- How far a pattern has been read. -/
structure Progress where
  mode : Mode := {}
  group : Group := {}
  /-- The groups around that one, the inner ones first. -/
  around : List Group := []
  names : List String := []
  /-- Somewhere an edge of words of Unicode is asked for. -/
  unicodeEdge : Bool := false
deriving DecidableEq, Repr

namespace Progress

def add (part : Part) (progress : Progress) : Progress :=
  { progress with group := progress.group.add part }

def openGroup (mode : Mode) (progress : Progress) : Progress :=
  { progress with
    mode
    group := { outer := progress.mode }
    around := progress.group :: progress.around }

def closeGroup? (progress : Progress) : Option Progress :=
  match progress.around with
  | [] => none
  | outer :: around =>
      some { progress with
        mode := progress.group.outer
        group := outer.add { depth := progress.group.depth + 1 }
        around }

def divide (progress : Progress) : Progress :=
  { progress with group := progress.group.divide }

end Progress

def modeLetters : List Char := ['i', 'm', 's', 'U', 'u', 'R', 'x', '-']

/-- Letters that change the mode, up to a colon or a closing parenthesis.  None
is given twice, and some follow a minus sign.  The ones so far are last first. -/
def readLetters (letters : List Char) : Reader (List Char)
  | [] => none
  | c :: rest =>
      if c = ':' ∨ c = ')' then
        if letters.head? = some '-' then none else some (letters.reverse, c :: rest)
      else if modeLetters.contains c && !letters.contains c then readLetters (c :: letters) rest
      else none

def opensName (c : Char) : Bool :=
  c = '_' || Text.isAlphabetic c

def continuesName (c : Char) : Bool :=
  c = '_' || c = '.' || c = '[' || c = ']' || Text.isAlphanumeric c

/-- The name of a group up to the closing angle bracket. -/
def readName : Reader String := fun input =>
  match input.takeWhile (· ≠ '>'), input.dropWhile (· ≠ '>') with
  | first :: later, _ :: rest =>
      if opensName first && later.all continuesName then
        some (String.ofList (first :: later), rest)
      else none
  | _, _ => none

/-- A step takes at least one character. -/
abbrev Step := Progress → List Char → Option (Progress × List Char)

/-- A group with a name that no other group has. -/
def openNamed : Step := fun progress input =>
  match readName input with
  | none => none
  | some (name, rest) =>
      if progress.names.contains name then none
      else
        some ({ progress.openGroup progress.mode with names := name :: progress.names }, rest)

/-- What stands after a parenthesis and a question mark: a new mode for a group
or for the rest of the group around it. -/
def changeMode : Step := fun progress input =>
  match readLetters [] input with
  | some (letters, ':' :: rest) =>
      some (progress.openGroup (progress.mode.change letters), rest)
  | some (letters, _ :: rest) =>
      if letters.isEmpty then none
      else
        let changed := { progress with mode := progress.mode.change letters }
        some (changed.add { repeatable := false }, rest)
  | _ => none

/-- What stands after an opening parenthesis. -/
def takeGroup : Step := fun progress input =>
  match progress.mode.skip input with
  | '?' :: 'P' :: '<' :: rest => openNamed progress rest
  | '?' :: '<' :: rest => openNamed progress rest
  | '?' :: rest => changeMode progress rest
  | rest => some (progress.openGroup progress.mode, rest)

/-- A repetition that takes as little as it can has a question mark more. -/
def takeRepetition : Step := fun progress rest =>
  progress.group.repeatLast?.map fun group =>
    ({ progress with group },
      match rest with
      | '?' :: rest => rest
      | rest => rest)

/-- The symbol can stand outside of a class.  A byte beyond ASCII is no text. -/
def Mode.matchesSymbol (mode : Mode) : Symbol → Bool
  | .literal literal =>
      if mode.unicode then !mode.caseless else !literal.asByte || literal.isAscii
  | .set negated => mode.admitsSet negated
  | .edge | .anchor => true

def takeSymbol (symbol : Symbol) : Step := fun progress rest =>
  if progress.mode.matchesSymbol symbol then
    let unicodeEdge := progress.unicodeEdge || (symbol = .edge && progress.mode.unicode)
    some ({ progress.add {} with unicodeEdge }, rest)
  else none

/-- Reads what begins with a character. -/
def take (c : Char) : Step := fun progress rest =>
  match c with
  | '(' => takeGroup progress rest
  | ')' => progress.closeGroup?.map fun progress => (progress, rest)
  | '|' => some (progress.divide, rest)
  | '[' =>
      (readClass progress.mode rest).map fun (depth, rest) => (progress.add { depth }, rest)
  | '?' | '*' | '+' => takeRepetition progress rest
  | '\x7b' => none
  | '\\' => (readEscape progress.mode rest).bind fun (symbol, rest) =>
      takeSymbol symbol progress rest
  | '.' => if progress.mode.unicode then some (progress.add {}, rest) else none
  | '^' | '$' => takeSymbol .anchor progress rest
  | c => takeSymbol (.literal { char := c }) progress rest

def takeAll : Nat → Progress → List Char → Option Progress
  | 0, _, _ => none
  | fuel + 1, progress, input =>
      match progress.mode.skip input with
      | [] => some progress
      | c :: rest => (take c progress rest).bind fun (progress, rest) => takeAll fuel progress rest

def maxDepth : Nat := 250

inductive Trouble where
  | malformed
  /-- Edges of words of Unicode are known but not supported. -/
  | unicodeEdge
deriving DecidableEq, Repr

def trouble? (pattern : List Char) : Option Trouble :=
  match takeAll (pattern.length + 1) {} pattern with
  | none => some .malformed
  | some progress =>
      if !progress.around.isEmpty || maxDepth < progress.group.depth then some .malformed
      else if progress.unicodeEdge then some .unicodeEdge
      else none

end SwitchShell.Log.Pattern
