import SwitchShell.Toml.Value

namespace SwitchShell.Toml

/-- Tab, printable ASCII and everything beyond ASCII. -/
def isTextChar (c : Char) : Bool :=
  c = '\t' || (' ' ≤ c && c ≤ '~') || '\x7f' < c

def isBlank (c : Char) : Bool :=
  c = ' ' || c = '\t'

def skipBlank (input : List Char) : List Char :=
  input.dropWhile isBlank

/-- The characters after one line end. -/
def newline? : List Char → Option (List Char)
  | '\n' :: rest => some rest
  | '\r' :: '\n' :: rest => some rest
  | _ => none

/-- The characters after a comment, if there is one. -/
def skipComment : List Char → List Char
  | '#' :: rest => rest.dropWhile isTextChar
  | input => input

/-- The characters after the end of a line, before which only blanks and a
comment may stand.  The document may end there too. -/
def lineEnd? (input : List Char) : Option (List Char) :=
  match skipComment (skipBlank input) with
  | [] => some []
  | rest => newline? rest

/-- Skips blanks, line ends and, between two line ends, comments. -/
def skipSpace (inComment : Bool) : List Char → List Char
  | [] => []
  | '\r' :: '\n' :: rest => skipSpace false rest
  | c :: rest =>
      if c = '\n' then skipSpace false rest
      else if inComment then
        if isTextChar c then skipSpace true rest else c :: rest
      else if isBlank c then skipSpace false rest
      else if c = '#' then skipSpace true rest
      else c :: rest

/-- Skips blanks and line ends. -/
def skipBlankLines : List Char → List Char
  | [] => []
  | '\r' :: '\n' :: rest => skipBlankLines rest
  | c :: rest => if isBlank c || c = '\n' then skipBlankLines rest else c :: rest

def hexValue? (c : Char) : Option Nat :=
  if '0' ≤ c ∧ c ≤ '9' then some (c.toNat - '0'.toNat)
  else if 'a' ≤ c ∧ c ≤ 'f' then some (c.toNat - 'a'.toNat + 10)
  else if 'A' ≤ c ∧ c ≤ 'F' then some (c.toNat - 'A'.toNat + 10)
  else none

/-- A character written by the hexadecimal digits of its number. -/
def readCode (count : Nat) (input : List Char) : Option (Char × List Char) := do
  let digits ← (input.take count).mapM hexValue?
  if digits.length ≠ count then none
  else
    let code := digits.foldl (fun value digit => 16 * value + digit) 0
    if code.isValidChar then some (Char.ofNat code, input.drop count) else none

/-- A character after a backslash. -/
def readEscape : Reader Char
  | 'b' :: rest => some ('\x08', rest)
  | 't' :: rest => some ('\t', rest)
  | 'n' :: rest => some ('\n', rest)
  | 'f' :: rest => some ('\x0c', rest)
  | 'r' :: rest => some ('\r', rest)
  | '"' :: rest => some ('"', rest)
  | '\\' :: rest => some ('\\', rest)
  | 'u' :: rest => readCode 4 rest
  | 'U' :: rest => readCode 8 rest
  | _ => none

/-- Puts characters in front of what a reader gives. -/
def prepend (start : List Char) (read : Option (List Char × List Char)) :
    Option (List Char × List Char) :=
  read.map fun (text, rest) => (start ++ text, rest)

/-- The rest of a string in double quotes. -/
def readBasic : Nat → Reader (List Char)
  | 0, _ => none
  | _, [] => none
  | _ + 1, '"' :: rest => some ([], rest)
  | fuel + 1, '\\' :: rest =>
      match readEscape rest with
      | some (c, rest) => prepend [c] (readBasic fuel rest)
      | none => none
  | fuel + 1, c :: rest => if isTextChar c then prepend [c] (readBasic fuel rest) else none

/-- The rest of a string in single quotes. -/
def readLiteral (input : List Char) : Option (List Char × List Char) :=
  let isPlain (c : Char) : Bool := isTextChar c && c ≠ '\''
  match input.dropWhile isPlain with
  | '\'' :: rest => some (input.takeWhile isPlain, rest)
  | _ => none

/-- The characters after a backslash that ends its line, and after the blanks
and line ends that follow. -/
def continued? (input : List Char) : Option (List Char) :=
  (newline? (skipBlank input)).map skipBlankLines

/-- The rest of a string in three quotes on either side.  Up to two quotes may
stand inside it, also before the closing ones. -/
def readLong (quote : Char) (escapes : Bool) : Nat → Reader (List Char)
  | 0, _ => none
  | _, [] => none
  | fuel + 1, '\r' :: '\n' :: rest => prepend ['\n'] (readLong quote escapes fuel rest)
  | fuel + 1, c :: rest =>
      if c = quote then
        let input := c :: rest
        let quotes := (input.takeWhile (· = quote)).length
        if quotes < 3 then
          prepend (input.take quotes) (readLong quote escapes fuel (input.drop quotes))
        else if quotes ≤ 5 then some (List.replicate (quotes - 3) quote, input.drop quotes)
        else none
      else if c = '\\' ∧ escapes then
        match continued? rest with
        | some rest => readLong quote escapes fuel rest
        | none =>
            match readEscape rest with
            | some (c, rest) => prepend [c] (readLong quote escapes fuel rest)
            | none => none
      else if c = '\n' ∨ isTextChar c then prepend [c] (readLong quote escapes fuel rest)
      else none

/-- The characters without a line end in front. -/
def dropNewline (input : List Char) : List Char :=
  (newline? input).getD input

def readString : Reader String
  | '"' :: '"' :: '"' :: rest => do
      let (text, rest) ← readLong '"' true rest.length (dropNewline rest)
      return (String.ofList text, rest)
  | '\'' :: '\'' :: '\'' :: rest => do
      let (text, rest) ← readLong '\'' false rest.length (dropNewline rest)
      return (String.ofList text, rest)
  | '"' :: rest => do
      let (text, rest) ← readBasic rest.length rest
      return (String.ofList text, rest)
  | '\'' :: rest => do
      let (text, rest) ← readLiteral rest
      return (String.ofList text, rest)
  | _ => none

def isKeyChar (c : Char) : Bool :=
  c.isAlphanum || c = '-' || c = '_'

/-- A key without dots; in quotes it is a string of one line. -/
def readKey (input : List Char) : Option (String × List Char) :=
  match input with
  | '"' :: rest => (readBasic rest.length rest).map fun (text, rest) => (String.ofList text, rest)
  | '\'' :: rest => (readLiteral rest).map fun (text, rest) => (String.ofList text, rest)
  | _ =>
      let key := input.takeWhile isKeyChar
      if key.isEmpty then none else some (String.ofList key, input.dropWhile isKeyChar)

def readKeys : Nat → Reader (List String)
  | 0, _ => none
  | fuel + 1, input => do
      let (key, rest) ← readKey (skipBlank input)
      match skipBlank rest with
      | '.' :: rest =>
          let (keys, rest) ← readKeys fuel rest
          return (key :: keys, rest)
      | rest => return ([key], rest)

/-- Keys joined by dots, and the blanks around them. -/
def readPath (input : List Char) : Option (List String × List Char) := do
  let (keys, rest) ← readKeys (input.length + 1) input
  if maxDepth < keys.length then none else some (keys, rest)

end SwitchShell.Toml
