import SwitchShell.Text.Words

namespace SwitchShell.Completion

structure Request where
  /-- The finished words without a leading `help` and `no`. -/
  words : List String
  /-- The word in progress; empty after white space. -/
  stem : String
  negated : Bool
deriving DecidableEq, Repr

/-- Drops the first word if it is the given one. -/
def dropWord (word : String) : List String → List String
  | [] => []
  | first :: rest => if first = word then rest else first :: rest

/-- The word in progress of a line with these words. -/
def stemOf (line : String) (words : List String) : String :=
  if line.isEmpty || Text.endsBlank line then "" else words.getLast?.getD ""

def Request.parse (line : String) : Request :=
  let words := Text.words line
  let finished := if line.isEmpty || Text.endsBlank line then words else words.dropLast
  let asked := dropWord "help" finished
  { words := dropWord "no" asked
    stem := stemOf line words
    negated := asked.head? == some "no" }

end SwitchShell.Completion
