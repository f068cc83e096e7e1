import SwitchShell.Decimal.Shortest
import SwitchShell.Json.Basic

namespace SwitchShell.Json

/-- Floating-point numbers have no exponent from `1e-5` up to `1e16`, and a
large exponent has a plus sign. -/
def floatLayout : Decimal.Layout := ⟨-5, 16, "+"⟩

/-- A floating-point number always shows a point or an exponent.  JSON has no
text for infinities and for values that are no number. -/
def floatText (value : Float) : String :=
  let bits := value.toBits.toNat
  let sign := if bits / Nat.pow 2 63 = 1 then "-" else ""
  let magnitude := bits % Nat.pow 2 63
  if magnitude = 0 then sign ++ "0.0"
  else if 0x7FF0000000000000 ≤ magnitude then "null"
  else sign ++ floatLayout.write (Decimal.shortest magnitude)

def hexDigit (value : Nat) : Char :=
  Char.ofNat (if value < 10 then '0'.toNat + value else 'a'.toNat + (value - 10))

/-- The form of one character inside quotes. -/
def escaped (c : Char) : List Char :=
  if c = '"' then ['\\', '"']
  else if c = '\\' then ['\\', '\\']
  else if c = '\x08' then ['\\', 'b']
  else if c = '\x0c' then ['\\', 'f']
  else if c = '\n' then ['\\', 'n']
  else if c = '\r' then ['\\', 'r']
  else if c = '\t' then ['\\', 't']
  else if c.toNat < 0x20 then
    ['\\', 'u', '0', '0', hexDigit (c.toNat / 16), hexDigit (c.toNat % 16)]
  else [c]

def quoted (text : String) : List Char :=
  '"' :: (text.toList.flatMap escaped ++ ['"'])

mutual

def chars : Json → List Char
  | .null => ['n', 'u', 'l', 'l']
  | .bool true => ['t', 'r', 'u', 'e']
  | .bool false => ['f', 'a', 'l', 's', 'e']
  | .integer value => (toString value).toList
  | .float value => (floatText value).toList
  | .string value => quoted value
  | .array [] => ['[', ']']
  | .array (item :: items) => '[' :: (chars item ++ itemChars items)
  | .object [] => ['\x7b', '\x7d']
  | .object ((name, value) :: members) =>
      '\x7b' :: (quoted name ++ ':' :: (chars value ++ memberChars members))

/-- The items after the first, and the closing bracket. -/
def itemChars : List Json → List Char
  | [] => [']']
  | item :: items => ',' :: (chars item ++ itemChars items)

/-- The members after the first, and the closing brace. -/
def memberChars : List (String × Json) → List Char
  | [] => ['\x7d']
  | (name, value) :: members =>
      ',' :: (quoted name ++ ':' :: (chars value ++ memberChars members))

end

/-- The compact text of a value. -/
def render (value : Json) : String :=
  String.ofList value.chars

end SwitchShell.Json
