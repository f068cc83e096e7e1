import SwitchShell.Toml.Scalar
import SwitchShell.Toml.Table
import SwitchShell.Toml.Text

namespace SwitchShell.Toml

mutual

/-- One value.  `depth` is the number of arrays and tables that may yet be opened. -/
def readValue : Nat → Nat → Reader Toml
  | 0, _, _ => none
  | _, _, [] => none
  | fuel + 1, depth, c :: rest =>
      if c = '"' ∨ c = '\'' then
        (readString (c :: rest)).map fun (text, rest) => (.string text, rest)
      else if c = '[' then
        match depth with
        | 0 => none
        | depth + 1 =>
            (readItems fuel depth rest).map fun (items, rest) => (.array items, rest)
      else if c = '\x7b' then
        match depth with
        | 0 => none
        | depth + 1 =>
            match skipBlank rest with
            | '\x7d' :: rest => some (.inlineTable [], rest)
            | rest =>
                (readPairs fuel depth [] rest).map fun (members, rest) =>
                  (.inlineTable members, rest)
      else if ['t', 'r', 'u', 'e'].isPrefixOf (c :: rest) then
        some (.boolean true, (c :: rest).drop 4)
      else if ['f', 'a', 'l', 's', 'e'].isPrefixOf (c :: rest) then
        some (.boolean false, (c :: rest).drop 5)
      else readNumeric (c :: rest)

/-- The items of an array up to its closing bracket.  A comma may follow the last one. -/
def readItems : Nat → Nat → Reader (List Toml)
  | 0, _, _ => none
  | fuel + 1, depth, input =>
      match skipSpace false input with
      | ']' :: rest => some ([], rest)
      | input =>
          match readValue fuel depth input with
          | none => none
          | some (item, rest) =>
              match skipSpace false rest with
              | ']' :: rest => some ([item], rest)
              | ',' :: rest =>
                  (readItems fuel depth rest).map fun (items, rest) => (item :: items, rest)
              | _ => none

/-- The pairs of an inline table up to its closing brace. -/
def readPairs : Nat → Nat → Members → Reader Members
  | 0, _, _, _ => none
  | fuel + 1, depth, members, input =>
      match readPath input with
      | some (path, '=' :: rest) =>
          match readValue fuel depth (skipBlank rest) with
          | none => none
          | some (value, rest) =>
              match bindKey path.dropLast (path.getLast?.getD "") value .header members with
              | none => none
              | some members =>
                  match skipBlank rest with
                  | '\x7d' :: rest => some (members, rest)
                  | ',' :: rest => readPairs fuel depth members rest
                  | _ => none
      | _ => none

end

/-- The tables so far, and the header whose table the next keys belong to. -/
structure Draft where
  root : Members := []
  header : List String := []

def Draft.readPair (draft : Draft) (input : List Char) : Option (Draft × List Char) := do
  let (path, rest) ← readPath input
  let (value, rest) ← readValue (2 * rest.length + 2) maxDepth (skipBlank (← after? '=' rest))
  let root ← bindUnder draft.header path.dropLast (path.getLast?.getD "") value draft.root
  return ({ draft with root }, ← lineEnd? rest)

def Draft.readHeader (draft : Draft) (input : List Char) : Option (Draft × List Char) :=
  match input with
  | '[' :: '[' :: rest => do
      let (header, rest) ← readPath rest
      let rest ← lineEnd? (← after? ']' (← after? ']' rest))
      return ({ root := ← appendTable header draft.root, header }, rest)
  | '[' :: rest => do
      let (header, rest) ← readPath rest
      let rest ← lineEnd? (← after? ']' rest)
      return ({ root := ← openTable header draft.root, header }, rest)
  | _ => none

/-- Reads the lines of a document.  Every line takes a character. -/
def Draft.readLines : Nat → Draft → List Char → Option Members
  | 0, _, _ => none
  | fuel + 1, draft, input =>
      match skipBlank input with
      | [] => some draft.root
      | c :: rest =>
          if c = '#' ∨ c = '\n' ∨ c = '\r' then (lineEnd? (c :: rest)).bind (draft.readLines fuel)
          else
            let line :=
              if c = '[' then draft.readHeader (c :: rest) else draft.readPair (c :: rest)
            match line with
            | some (draft, rest) => draft.readLines fuel rest
            | none => none

/-- The mark that may stand in front of a document. -/
def byteOrderMark : Char := '\uFEFF'

def parse? (text : String) : Option Members :=
  let input :=
    match text.toList with
    | c :: rest => if c = byteOrderMark then rest else c :: rest
    | [] => []
  Draft.readLines (input.length + 1) {} input

end SwitchShell.Toml
