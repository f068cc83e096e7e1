import SwitchShell.Fault
import SwitchShell.Text.Numeral
import SwitchShell.Text.Words

namespace SwitchShell

/-- A fixed word with an optional description. -/
structure Literal where
  word : String
  help : Option String := none
deriving DecidableEq, Repr, Inhabited

/-- One line of a listing.  A literal item can be typed as it stands, any other
is a placeholder. -/
structure HelpItem where
  text : String
  help : String
  literal : Bool := true
deriving DecidableEq, Repr, Inhabited

/-- The first item of each text. -/
def HelpItem.distinct : List HelpItem → List HelpItem
  | [] => []
  | item :: items => item :: (distinct items).filter fun other => other.text ≠ item.text

/-- Families of names that only the database knows. -/
inductive NameKind where
  | interface
deriving DecidableEq, Repr

namespace NameKind

def placeholder : NameKind → String
  | .interface => "<interface>"

def description : NameKind → String
  | .interface => "Interface name"

end NameKind

/-- The names that were in the database when a request began. -/
structure Names where
  interfaces : List String := []
deriving DecidableEq, Repr, Inhabited

def Names.get (names : Names) : NameKind → List String
  | .interface => names.interfaces

/-- What a word is bound to. -/
inductive Value where
  | word (text : String)
  | integer (number : Int)
deriving DecidableEq, Repr, Inhabited

namespace Value

def text : Value → String
  | .word text => text
  | .integer number => toString number

def word? : Value → Option String
  | .word text => some text
  | .integer _ => none

def integer? : Value → Option Int
  | .integer number => some number
  | .word _ => none

end Value

inductive TokenKind where
  | keyword (literal : Literal)
  | choice (literals : List Literal)
  | integer (low high : Option Int)
  | name (kind : NameKind)
deriving DecidableEq, Repr

/-- A template for one word. -/
structure Token where
  kind : TokenKind
  help : Option String := none
  required : Bool := false
deriving DecidableEq, Repr

/-- `word` is a non-empty abbreviation of `literal`. -/
def abbreviates (word literal : String) : Bool :=
  !word.isEmpty && Text.startsWith literal word

namespace Token

def keyword (word help : String) : Token :=
  { kind := .keyword { word, help := some help } }

def choice (words : List (String × String)) : Token :=
  { kind := .choice (words.map fun (word, help) => { word, help := some help }) }

/-- An integer from `low` to `high`. -/
def range (low high : Int) : Token :=
  { kind := .integer (some low) (some high) }

def name (kind : NameKind) : Token :=
  { kind := .name kind }

def withHelp (token : Token) (help : String) : Token :=
  { token with help := some help }

/-- The family of names the token depends on. -/
def nameKind? (token : Token) : Option NameKind :=
  match token.kind with
  | .name kind => some kind
  | _ => none

/-- The number a word stands for: digits only, at most 64 bits with a sign, and
within the bounds. -/
def integerWithin? (low high : Option Int) (word : String) : Option Int :=
  match Text.natural? word with
  | none => none
  | some number =>
      if Text.maxSigned64 < number then none
      else
        let value : Int := number
        if low.any (value < ·) || high.any (· < value) then none else some value

/-- The token accepts the word. -/
def accepts (names : Names) (token : Token) (word : String) : Bool :=
  match token.kind with
  | .keyword literal => abbreviates word literal.word
  | .choice literals => literals.any fun literal => abbreviates word literal.word
  | .integer low high => (integerWithin? low high word).isSome
  | .name kind => (names.get kind).contains word

/-- The word is none of the choices but abbreviates several. -/
def isAmbiguous (token : Token) (word : String) : Bool :=
  match token.kind with
  | .choice literals =>
      !(literals.any fun literal => literal.word == word) &&
        1 < (literals.filter fun literal => abbreviates word literal.word).length
  | _ => false

/-- The choice a word stands for: the one it spells out, else the first one it
abbreviates. -/
def chosen? (literals : List Literal) (word : String) : Option Literal :=
  (literals.find? fun literal => literal.word == word).or
    (literals.find? fun literal => abbreviates word literal.word)

/-- The value of a word; keywords and choices are bound in full. -/
def bind (names : Names) (token : Token) (word : String) : Except Fault Value :=
  match token.kind with
  | .keyword literal =>
      if abbreviates word literal.word then .ok (.word literal.word) else .error (.invalidValue word)
  | .choice literals =>
      match chosen? literals word with
      | some literal => .ok (.word literal.word)
      | none => .error (.invalidValue word)
  | .integer low high =>
      match integerWithin? low high word with
      | some number => .ok (.integer number)
      | none => .error (.invalidValue word)
  | .name _ =>
      if token.accepts names word then .ok (.word word) else .error (.invalidValue word)

/-- All values as they would be typed; an integer without both bounds has none. -/
def values (names : Names) (token : Token) : List String :=
  match token.kind with
  | .keyword literal => [literal.word]
  | .choice literals => literals.map (·.word)
  | .integer (some low) (some high) =>
      (List.range (high + 1 - low).toNat).map fun step : Nat => toString (low + (step : Int))
  | .integer _ _ => []
  | .name kind => names.get kind

/-- The values that begin with what was typed so far. -/
def complete (names : Names) (token : Token) (start : String) : List String :=
  (token.values names).filter fun value => Text.startsWith value start

/-- The form of the token in a usage line. -/
def usage (token : Token) : String :=
  match token.kind with
  | .keyword literal => literal.word
  | .choice literals => "\x7b" ++ String.intercalate "|" (literals.map (·.word)) ++ "\x7d"
  | .integer (some low) (some high) => "<" ++ toString low ++ "-" ++ toString high ++ ">"
  | .integer _ _ => "<number>"
  | .name kind => kind.placeholder

/-- The forms of the token beside others: a choice counts as its words. -/
def alternatives (token : Token) : List String :=
  match token.kind with
  | .choice literals => literals.map (·.word)
  | _ => [token.usage]

/-- Items for the literals that begin with `start`; `fallback` describes those
without help of their own. -/
def literalItems (literals : List Literal) (start fallback : String) : List HelpItem :=
  (literals.filter fun literal => Text.startsWith literal.word start).map fun literal =>
    { text := literal.word, help := literal.help.getD fallback }

/-- What may be offered for a word in progress.  An integer is offered as its
placeholder while the word holds digits only. -/
def candidates (names : Names) (token : Token) (start : String) : List HelpItem :=
  let help := token.help.getD ""
  match token.kind with
  | .keyword literal => literalItems [literal] start help
  | .choice literals => literalItems literals start help
  | .integer _ _ =>
      if start.toList.all Char.isDigit then [{ text := token.usage, help, literal := false }] else []
  | .name kind =>
      (token.complete names start).map fun text =>
        { text, help := token.help.getD kind.description }

end Token

end SwitchShell
