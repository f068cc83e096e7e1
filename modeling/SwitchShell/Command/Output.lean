import SwitchShell.Grammar.Token

namespace SwitchShell

/-- What a command shows. -/
inductive Output where
  | info (text : String)
  | error (text : String)
  | table (headers : List String) (rows : List (List String)) (indent : Nat)
  | keyValues (pairs : List (String × String)) (indent : Nat)
  | help (items : List HelpItem)
deriving DecidableEq, Repr

namespace Output

def tableOf (headers : List String) (rows : List (List String)) : Output :=
  .table headers rows 0

/-- Pairs that stand in from the left margin by two. -/
def pairs (entries : List (String × String)) : Output :=
  .keyValues entries 2

/-- Moves tables and pairs; nothing else has an indent. -/
def indented (indent : Nat) : Output → Output
  | .table headers rows _ => .table headers rows indent
  | .keyValues entries _ => .keyValues entries indent
  | other => other

/-- Raises widths to the sizes of the cells of a row. -/
def widen : List Nat → List String → List Nat
  | widths, [] => widths
  | [], cell :: cells => cell.utf8ByteSize :: widen [] cells
  | width :: widths, cell :: cells => max width cell.utf8ByteSize :: widen widths cells

def columnWidths (rows : List (List String)) : List Nat :=
  rows.foldl widen []

def columnGap : String := "   "

/-- One line of a table, without the space that follows its last cell. -/
def tableLine (widths : List Nat) (indent : Nat) (cells : List String) : String :=
  Text.trimRight
    (Text.spaces indent ++ String.intercalate columnGap (List.zipWith Text.padRight widths cells))

def tableLines (headers : List String) (rows : List (List String)) (indent : Nat) : List String :=
  let line := tableLine (columnWidths (headers :: rows)) indent
  (if headers.isEmpty then [] else [line headers]) ++ rows.map line

/-- The size of the longest text. -/
def widest (texts : List String) : Nat :=
  texts.foldl (fun width text => max width text.utf8ByteSize) 0

def pairLines (entries : List (String × String)) (indent : Nat) : List String :=
  let width := widest (entries.map Prod.fst)
  entries.map fun (key, value) =>
    Text.spaces indent ++ Text.padRight width key ++ ": " ++ value

def helpLines (items : List HelpItem) : List String :=
  let width := widest (items.map (·.text))
  items.map fun item =>
    Text.trimRight (Text.spaces 2 ++ Text.padRight width item.text ++ Text.spaces 2 ++ item.help)

/-- The lines of a text; an empty text is one empty line. -/
def textLines (text : String) : List String :=
  if text.isEmpty then [""] else Text.lines text

def render : Output → List String
  | .info text => textLines text
  | .error text => textLines text
  | .table headers rows indent => tableLines headers rows indent
  | .keyValues entries indent => pairLines entries indent
  | .help items => helpLines items

end Output

end SwitchShell
