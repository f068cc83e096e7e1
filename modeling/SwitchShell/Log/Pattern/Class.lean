import SwitchShell.Log.Pattern.Escape

namespace SwitchShell.Log.Pattern

/-- How deep things side by side nest: one alone is not nested. -/
def depthOfAll : List Nat → Nat
  | [] => 0
  | [depth] => depth
  | depths => depths.foldl max 0 + 1

/-- What is read of an open class. -/
structure OpenClass where
  /-- How deep what stands before the last operator nests. -/
  left : Option Nat := none
  /-- The items after it. -/
  items : List Nat := []
deriving DecidableEq, Repr

namespace OpenClass

def add (depth : Nat) (opened : OpenClass) : OpenClass :=
  { opened with items := depth :: opened.items }

def depth (opened : OpenClass) : Nat :=
  match opened.left with
  | some left => max left (depthOfAll opened.items) + 1
  | none => depthOfAll opened.items

/-- An operator joins all that stands before it. -/
def operate (opened : OpenClass) : OpenClass :=
  { left := some opened.depth }

end OpenClass

/-- A class of this mode can hold the character. -/
def Mode.admits (mode : Mode) (literal : Literal) : Bool :=
  if mode.unicode then !mode.caseless else literal.isAscii

/-- The named set of ASCII characters, or all but those, can stand in a class. -/
def Mode.admitsNamed (mode : Mode) (negated : Bool) : Bool :=
  if mode.unicode then !mode.caseless else !negated

/-- The set a backslash and a letter name can be used. -/
def Mode.admitsSet (mode : Mode) (negated : Bool) : Bool :=
  !mode.unicode && !negated

def setNames : List String :=
  ["alnum", "alpha", "ascii", "blank", "cntrl", "digit", "graph", "lower", "print", "punct",
    "space", "upper", "word", "xdigit"]

/-- The name of a set between colons, with the brackets around it; gives
whether the set is negated. -/
def readNamed : Reader Bool
  | '[' :: ':' :: rest =>
      let (negated, rest) :=
        match rest with
        | '^' :: rest => (true, rest)
        | rest => (false, rest)
      match rest.dropWhile (· ≠ ':') with
      | ':' :: ']' :: after =>
          if setNames.contains (String.ofList (rest.takeWhile (· ≠ ':'))) then some (negated, after)
          else none
      | _ => none
  | _ => none

/-- One character of a class, or what a backslash makes of some. -/
def readSymbol (mode : Mode) : Reader Symbol
  | [] => none
  | '\\' :: rest => readEscape mode rest
  | c :: rest => some (.literal { char := c }, rest)

/-- The symbol can stand in a class. -/
def Mode.admitsSymbol (mode : Mode) : Symbol → Bool
  | .literal literal => mode.admits literal
  | .set negated => mode.admitsSet negated
  | .edge | .anchor => false

/-- A range of characters whose ends are in order. -/
def Mode.admitsRange (mode : Mode) : Symbol → Symbol → Bool
  | .literal first, .literal last =>
      mode.admits first && mode.admits last && first.char ≤ last.char
  | _, _ => false

/-- The characters after one symbol or one range.  A hyphen before the closing
bracket or before another hyphen makes no range. -/
def afterItem? (mode : Mode) (input : List Char) : Option (List Char) :=
  match readSymbol mode input with
  | none => none
  | some (first, rest) =>
      match mode.skip rest with
      | '-' :: after =>
          if mode.peek after = some ']' ∨ mode.peek after = some '-' then
            if mode.admitsSymbol first then some ('-' :: after) else none
          else
            match readSymbol mode (mode.skip after) with
            | none => none
            | some (last, rest) => if mode.admitsRange first last then some rest else none
      | rest => if mode.admitsSymbol first then some rest else none

/-- Hyphens at the beginning of a class stand for themselves. -/
def takeHyphens (mode : Mode) : Nat → OpenClass → List Char → OpenClass × List Char
  | fuel + 1, opened, '-' :: rest => takeHyphens mode fuel (opened.add 0) (mode.skip rest)
  | _, opened, input => (opened, input)

/-- Reads the beginning of a class after its bracket.  A closing bracket that
comes first stands for itself. -/
def openClass (mode : Mode) (input : List Char) : Option (OpenClass × List Char) :=
  let (negated, input) :=
    match mode.skip input with
    | '^' :: rest => (true, mode.skip rest)
    | rest => (false, rest)
  let (opened, input) := takeHyphens mode input.length {} input
  let (opened, input) :=
    match opened.items, input with
    | [], ']' :: rest => (opened.add 0, mode.skip rest)
    | _, _ => (opened, input)
  if (negated && !mode.unicode) || (!opened.items.isEmpty && !mode.admitsNamed false) then none
  else some (opened, input)

/-- Reads a class to its closing bracket and gives how deep it nests. -/
def readItems (mode : Mode) : Nat → OpenClass → Reader Nat
  | 0, _, _ => none
  | fuel + 1, opened, input =>
      match mode.skip input with
      | [] => none
      | ']' :: rest => some (opened.depth + 1, rest)
      | '&' :: '&' :: rest => readItems mode fuel opened.operate rest
      | '-' :: '-' :: rest => readItems mode fuel opened.operate rest
      | '~' :: '~' :: rest => readItems mode fuel opened.operate rest
      | '[' :: rest =>
          match readNamed ('[' :: rest) with
          | some (negated, rest) =>
              if mode.admitsNamed negated then readItems mode fuel (opened.add 0) rest else none
          | none => do
              let (inner, rest) ← openClass mode rest
              let (depth, rest) ← readItems mode fuel inner rest
              readItems mode fuel (opened.add depth) rest
      | input => do
          let rest ← afterItem? mode input
          readItems mode fuel (opened.add 0) rest

/-- Reads a class after its opening bracket. -/
def readClass (mode : Mode) : Reader Nat := fun input => do
  let (opened, rest) ← openClass mode input
  readItems mode (input.length + 1) opened rest

end SwitchShell.Log.Pattern
