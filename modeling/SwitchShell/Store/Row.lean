import SwitchShell.Json.Printer

namespace SwitchShell

/-- A row binds columns to values. -/
abbrev Row := Dictionary Json

namespace Row

/-- A text stands for itself, any other value for its compact text. -/
def atomText : Json → String
  | .string text => text
  | other => other.render

/-- The members of an object; any other value is an empty row. -/
def ofJson (value : Json) : Row :=
  value.object?.getD []

def encodePair (pair : String × String) : Json :=
  .array [.string pair.1, .string pair.2]

/-- The value of a map column. -/
def encodeMap (pairs : List (String × String)) : Json :=
  .array [.string "map", .array (pairs.map encodePair)]

def decodePair? : Json → Option (String × String)
  | .array [key, value] => some (atomText key, atomText value)
  | _ => none

/-- The map a column holds; anything that is no map reads as the empty one. -/
def decodeMap : Json → Dictionary String
  | .array [.string tag, .array pairs] =>
      if tag = "map" then Dictionary.ofPairs (pairs.filterMap decodePair?) else []
  | _ => []

def mapAt (row : Row) (column : String) : Dictionary String :=
  (Dictionary.find? column row).elim [] decodeMap

def textAt? (row : Row) (column : String) : Option String :=
  (Dictionary.find? column row).bind Json.string?

theorem decodePair?_encodePair (pair : String × String) :
    decodePair? (encodePair pair) = some pair := rfl

theorem decodeMap_encodeMap (pairs : List (String × String)) :
    decodeMap (encodeMap pairs) = Dictionary.ofPairs pairs := by
  simp [decodeMap, encodeMap, List.filterMap_map, Function.comp_def, decodePair?_encodePair]

end Row

end SwitchShell
