import SwitchShell.Dictionary

namespace SwitchShell

/-- What brought a table about, which decides how it may be extended. -/
inductive Toml.Origin where
  /-- A header of its own. -/
  | header
  /-- The header of a table inside it. -/
  | implied
  /-- A dotted key. -/
  | dotted
deriving DecidableEq, Repr

/-- No setting is a floating-point number or a date, so these are not kept. -/
inductive Toml where
  | string (text : String)
  | integer (value : Int)
  | float
  | boolean (value : Bool)
  | dateTime
  | array (items : List Toml)
  | inlineTable (members : List (String × Toml))
  | table (origin : Toml.Origin) (members : List (String × Toml))
  /-- Tables whose headers have double brackets, the last one open for more keys. -/
  | tables (entries : List (List (String × Toml)))
deriving Inhabited

namespace Toml

abbrev Members := Dictionary Toml

/-- Takes what is in front of the characters, and gives the rest. -/
abbrev Reader (α : Type) := List Char → Option (α × List Char)

/-- The number of values that may be nested, and of keys that may be joined by dots. -/
def maxDepth : Nat := 79

end Toml

end SwitchShell
