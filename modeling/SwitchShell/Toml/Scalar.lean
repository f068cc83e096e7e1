import SwitchShell.Text.Numeral
import SwitchShell.Toml.Value

namespace SwitchShell.Toml

/-- The digits of a run whose first one has been read.  An underscore may stand
between two digits. -/
def readMoreDigits (isDigit : Char → Bool) : Reader (List Char)
  | [] => some ([], [])
  | ['_'] => none
  | '_' :: c :: rest =>
      if isDigit c then
        (readMoreDigits isDigit rest).map fun (digits, rest) => (c :: digits, rest)
      else none
  | c :: rest =>
      if isDigit c then
        (readMoreDigits isDigit rest).map fun (digits, rest) => (c :: digits, rest)
      else some ([], c :: rest)

def readDigits (isDigit : Char → Bool) : Reader (List Char)
  | [] => none
  | c :: rest =>
      if isDigit c then
        (readMoreDigits isDigit rest).map fun (digits, rest) => (c :: digits, rest)
      else none

/-- The digits of a whole number, which begins with a zero only if it is zero. -/
def readWhole : Reader (List Char)
  | '0' :: rest => some (['0'], rest)
  | input => readDigits Char.isDigit input

/-- A sign, if there is one; it tells whether the number is negative. -/
def readSign : List Char → Bool × List Char
  | '-' :: rest => (true, rest)
  | '+' :: rest => (false, rest)
  | input => (false, input)

def readExponent : Reader Int
  | c :: rest =>
      if c = 'e' ∨ c = 'E' then
        let (negative, rest) := readSign rest
        (readDigits Char.isDigit rest).map fun (digits, rest) =>
          let value : Int := Text.decimalValue digits
          (if negative then -value else value, rest)
      else none
  | [] => none

/-- The least number that 64-bit floating point rounds to infinity. -/
def floatLimit : Nat := Nat.pow 2 1024 - Nat.pow 2 970

/-- The number `significand · 10 ^ exponent` is rounded to infinity. -/
def overflows (significand : Nat) (exponent : Int) : Bool :=
  let digits : Int := (toString significand).length
  if significand = 0 then false
  else if digits + exponent ≤ 308 then false
  else if 310 < digits + exponent then true
  else if 0 ≤ exponent then floatLimit ≤ significand * Nat.pow 10 exponent.toNat
  else floatLimit * Nat.pow 10 (-exponent).toNat ≤ significand

/-- A floating-point number.  Only a negative one may be out of range. -/
def float? (negative : Bool) (whole fraction : List Char) (exponent : Int) : Option Toml :=
  let significand := Text.decimalValue (whole ++ fraction)
  if !negative && overflows significand (exponent - fraction.length) then none else some .float

def integer? (value : Int) : Option Toml :=
  if -(Text.maxSigned64 : Int) - 1 ≤ value ∧ value ≤ Text.maxSigned64 then some (.integer value)
  else none

def radixValue (base : Nat) (digits : List Char) : Nat :=
  digits.foldl
    (fun value c =>
      base * value +
        (if c.isDigit then c.toNat - '0'.toNat else c.toLower.toNat - 'a'.toNat + 10)) 0

def readRadix (base : Nat) (isDigit : Char → Bool) (input : List Char) :
    Option (Toml × List Char) := do
  let (digits, rest) ← readDigits isDigit input
  let value ← integer? (radixValue base digits)
  return (value, rest)

def isHexDigit (c : Char) : Bool :=
  c.isDigit || ('a' ≤ c && c ≤ 'f') || ('A' ≤ c && c ≤ 'F')

def readDecimal (input : List Char) : Option (Toml × List Char) := do
  let (negative, rest) := readSign input
  if ['i', 'n', 'f'].isPrefixOf rest || ['n', 'a', 'n'].isPrefixOf rest then
    return (.float, rest.drop 3)
  let (whole, rest) ← readWhole rest
  match rest with
  | '.' :: rest =>
      let (fraction, rest) ← readDigits Char.isDigit rest
      match rest with
      | c :: _ =>
          if c = 'e' ∨ c = 'E' then
            let (exponent, rest) ← readExponent rest
            return (← float? negative whole fraction exponent, rest)
          else return (← float? negative whole fraction 0, rest)
      | [] => return (← float? negative whole fraction 0, rest)
  | c :: _ =>
      if c = 'e' ∨ c = 'E' then
        let (exponent, rest) ← readExponent rest
        return (← float? negative whole [] exponent, rest)
      else return (← integer? (signed negative whole), rest)
  | [] => return (← integer? (signed negative whole), rest)
where
  signed (negative : Bool) (digits : List Char) : Int :=
    let value : Int := Text.decimalValue digits
    if negative then -value else value

def readNumber : Reader Toml
  | '0' :: 'x' :: rest => readRadix 16 isHexDigit rest
  | '0' :: 'o' :: rest => readRadix 8 (fun c => '0' ≤ c && c ≤ '7') rest
  | '0' :: 'b' :: rest => readRadix 2 (fun c => c = '0' || c = '1') rest
  | input => readDecimal input

/-- A number of exactly so many digits, within bounds. -/
def readField (count low high : Nat) (input : List Char) : Option (Nat × List Char) :=
  let digits := input.take count
  if digits.length = count ∧ digits.all Char.isDigit then
    let value := Text.decimalValue digits
    if low ≤ value ∧ value ≤ high then some (value, input.drop count) else none
  else none

/-- The characters after a mark. -/
def after? (mark : Char) : List Char → Option (List Char)
  | c :: rest => if c = mark then some rest else none
  | [] => none

def daysOf (year month : Nat) : Nat :=
  if month = 2 then
    if year % 4 = 0 ∧ (year % 100 ≠ 0 ∨ year % 400 = 0) then 29 else 28
  else if month = 4 ∨ month = 6 ∨ month = 9 ∨ month = 11 then 30
  else 31

/-- The characters after a date. -/
def date? (input : List Char) : Option (List Char) := do
  let (year, rest) ← readField 4 0 9999 input
  let (month, rest) ← readField 2 1 12 (← after? '-' rest)
  let (_, rest) ← readField 2 1 (daysOf year month) (← after? '-' rest)
  return rest

/-- The characters after a time of day; its seconds may have a fraction. -/
def time? (input : List Char) : Option (List Char) := do
  let (_, rest) ← readField 2 0 23 input
  let (_, rest) ← readField 2 0 59 (← after? ':' rest)
  let (_, rest) ← readField 2 0 60 (← after? ':' rest)
  match rest with
  | '.' :: c :: more => return if c.isDigit then more.dropWhile Char.isDigit else rest
  | _ => return rest

/-- The characters after the distance from universal time. -/
def offset? : List Char → Option (List Char)
  | 'Z' :: rest => some rest
  | 'z' :: rest => some rest
  | c :: rest =>
      if c = '+' ∨ c = '-' then do
        let (_, rest) ← readField 2 0 23 rest
        let (_, rest) ← readField 2 0 59 (← after? ':' rest)
        return rest
      else none
  | [] => none

/-- The characters after a date and perhaps a time, or after a time. -/
def dateTime? (input : List Char) : Option (List Char) :=
  match date? input with
  | some (c :: rest) =>
      if c = 'T' ∨ c = 't' ∨ c = ' ' then
        match time? rest with
        | some rest => some ((offset? rest).getD rest)
        | none => some (c :: rest)
      else some (c :: rest)
  | some [] => some []
  | none => time? input

/-- A date, a time or a number. -/
def readNumeric (input : List Char) : Option (Toml × List Char) :=
  match dateTime? input with
  | some rest => some (.dateTime, rest)
  | none => readNumber input

end SwitchShell.Toml
