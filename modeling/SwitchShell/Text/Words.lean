import SwitchShell.Text.Blank

namespace SwitchShell.Text

/-- The longest runs of characters that are not white space. -/
def splitWords : List Char → List (List Char)
  | [] => []
  | c :: rest =>
      if isBlank c then splitWords rest
      else
        match rest with
        | [] => [[c]]
        | next :: _ =>
            if isBlank next then [c] :: splitWords rest
            else
              match splitWords rest with
              | [] => [[c]]
              | word :: words => (c :: word) :: words

def words (text : String) : List String :=
  (splitWords text.toList).map String.ofList

def trimStart (text : List Char) : List Char :=
  text.dropWhile isBlank

def trimEnd (text : List Char) : List Char :=
  (trimStart text.reverse).reverse

/-- The text without the white space at either end. -/
def trim (text : String) : String :=
  String.ofList (trimEnd (trimStart text.toList))

def trimRight (text : String) : String :=
  String.ofList (trimEnd text.toList)

def endsBlank (text : String) : Bool :=
  match text.toList.getLast? with
  | some c => isBlank c
  | none => false

/-- Cuts at every occurrence of `separator`; there is always one piece more
than there are separators. -/
def splitAt [DecidableEq α] (separator : α) : List α → List (List α)
  | [] => [[]]
  | a :: rest =>
      if a = separator then [] :: splitAt separator rest
      else
        match splitAt separator rest with
        | [] => [[a]]
        | piece :: pieces => (a :: piece) :: pieces

/-- Removes one carriage return from the end of a line. -/
def dropReturn [DecidableEq α] (mark : α) (line : List α) : List α :=
  if line.getLast? = some mark then line.dropLast else line

/-- The lines of a text whose lines end in a `feed`.  A `mark` just before the
`feed` belongs to the line end, and nothing follows the last `feed` unless the
text goes on after it. -/
def splitLines [DecidableEq α] (feed mark : α) (text : List α) : List (List α) :=
  let pieces := splitAt feed text
  let ended := pieces.dropLast.map (dropReturn mark)
  match pieces.getLast? with
  | some last => if last.isEmpty then ended else ended ++ [last]
  | none => ended

def lines (text : String) : List String :=
  (splitLines '\n' '\r' text.toList).map String.ofList

def startsWith (text start : String) : Bool :=
  start.toList.isPrefixOf text.toList

/-- Adds spaces at the end up to a number of characters. -/
def padRight (width : Nat) (text : String) : String :=
  text ++ String.ofList (List.replicate (width - text.length) ' ')

def spaces (count : Nat) : String :=
  String.ofList (List.replicate count ' ')

/-- Puts `replacement` in the place of every `mark`. -/
def replaceChar (mark : Char) (replacement text : String) : String :=
  String.ofList (text.toList.flatMap fun c => if c = mark then replacement.toList else [c])

/-- `part` occurs somewhere in `text`. -/
def hasInfix (part : List Char) : List Char → Bool
  | [] => part.isEmpty
  | c :: rest => part.isPrefixOf (c :: rest) || hasInfix part rest

def contains (text part : String) : Bool :=
  hasInfix part.toList text.toList

end SwitchShell.Text
