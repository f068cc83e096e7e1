import SwitchShell.Json.Basic
import SwitchShell.Text.Bytes

namespace SwitchShell.Json

/-! Reading JSON from bytes that may stop early.

A reader answers with a value and the bytes after it, says that the bytes are
the beginning of something that needs more bytes, or refuses them.  Blanks
before a value are skipped.  At most `maxDepth` arrays and objects may be open
at once.
-/

open Text (Bytes byteOf)

/-- What a reader makes of the bytes in front of it. -/
inductive Reading (α : Type) where
  | complete (value : α) (rest : Bytes)
  | incomplete
  | malformed
deriving Repr

namespace Reading

def bind (reading : Reading α) (next : α → Bytes → Reading β) : Reading β :=
  match reading with
  | .complete value rest => next value rest
  | .incomplete => .incomplete
  | .malformed => .malformed

end Reading

def maxDepth : Nat := 127

def isBlankByte (byte : UInt8) : Bool :=
  byte = 0x20 || byte = 0x0A || byte = 0x09 || byte = 0x0D

def skipBlank (input : Bytes) : Bytes :=
  input.dropWhile isBlankByte

/-- The rest of a word that has one spelling only. -/
def readLiteral (value : Json) : Bytes → Bytes → Reading Json
  | [], input => .complete value input
  | _ :: _, [] => .incomplete
  | expected :: more, byte :: rest =>
      if byte = expected then readLiteral value more rest else .malformed

def isDigitByte (byte : UInt8) : Bool :=
  0x30 ≤ byte && byte ≤ 0x39

/-- Appends digits to a number as long as it fits 64 bits.  Answers the number
and the digits that did not fit. -/
def appendDigits (significand : Nat) : Bytes → Nat × Bytes
  | [] => (significand, [])
  | digit :: digits =>
      let longer := 10 * significand + (digit.toNat - 0x30)
      if longer ≤ Text.maxUnsigned64 then appendDigits longer digits
      else (significand, digit :: digits)

/-- Scales by a power of ten in at most `steps` steps of `1e308` and a last
smaller one.  Too large a number is no number. -/
def scaleFloat (value : Float) (exponent : Int) : Nat → Option Float
  | 0 => some value
  | steps + 1 =>
      if exponent.natAbs ≤ 308 then
        if 0 ≤ exponent then
          let scaled := value * Float.ofScientific 1 false exponent.natAbs
          if scaled.isInf then none else some scaled
        else some (value / Float.ofScientific 1 false exponent.natAbs)
      else if value == 0.0 then some value
      else if 0 ≤ exponent then none
      else scaleFloat (value / Float.ofScientific 1 false 308) (exponent + 308) steps

/-- The floating-point number `± significand · 10 ^ exponent`, computed in
floating point. -/
def floatNumber (negative : Bool) (significand : Nat) (exponent : Int) (rest : Bytes) :
    Reading Json :=
  match scaleFloat (Float.ofScientific significand false 0) exponent 8 with
  | none => .malformed
  | some value => .complete (.float (if negative then -value else value)) rest

/-- The largest exponent that is written out digit by digit. -/
def maxExponent : Nat := 2147483647

/-- The exponent after its letter. -/
def readExponent (negative : Bool) (significand : Nat) (exponent : Int) (input : Bytes) :
    Reading Json :=
  let (down, unsigned) :=
    match input with
    | byte :: rest =>
        if byte = byteOf '+' then (false, rest)
        else if byte = byteOf '-' then (true, rest)
        else (false, input)
    | [] => (false, [])
  match unsigned with
  | [] => .incomplete
  | byte :: _ =>
      if isDigitByte byte then
        let digits := unsigned.takeWhile isDigitByte
        let rest := unsigned.dropWhile isDigitByte
        let size := digits.foldl (fun size digit => 10 * size + (digit.toNat - 0x30)) 0
        if maxExponent < size then
          if significand ≠ 0 ∧ !down then .malformed
          else .complete (.float (if negative then -0.0 else 0.0)) rest
        else
          floatNumber negative significand (if down then exponent - size else exponent + size) rest
      else .malformed

/-- What may follow the digits of a number that has become a floating-point
number: an exponent or nothing. -/
def readScale (negative : Bool) (significand : Nat) (exponent : Int) (input : Bytes) :
    Reading Json :=
  match input with
  | byte :: rest =>
      if byte = byteOf 'e' || byte = byteOf 'E' then
        readExponent negative significand exponent rest
      else floatNumber negative significand exponent input
  | [] => floatNumber negative significand exponent input

/-- The digits after the point.  Digits beyond 64 bits are dropped. -/
def readFraction (negative : Bool) (significand : Nat) (exponent : Int) (input : Bytes) :
    Reading Json :=
  match input with
  | [] => .incomplete
  | byte :: _ =>
      if isDigitByte byte then
        let digits := input.takeWhile isDigitByte
        let rest := input.dropWhile isDigitByte
        let (longer, dropped) := appendDigits significand digits
        readScale negative longer (exponent - (digits.length - dropped.length : Nat)) rest
      else .malformed

/-- A number without point and exponent.  A negative one that does not fit a
signed number of 64 bits, and minus zero, are floating-point numbers. -/
def wholeNumber (negative : Bool) (significand : Nat) (rest : Bytes) : Reading Json :=
  if negative then
    if significand ≠ 0 ∧ significand ≤ Text.maxSigned64 + 1 then
      .complete (.integer (-significand)) rest
    else .complete (.float (-(Float.ofScientific significand false 0))) rest
  else .complete (.integer significand) rest

/-- What follows the whole part of a number. -/
def readTail (negative : Bool) (significand : Nat) (input : Bytes) : Reading Json :=
  match input with
  | byte :: rest =>
      if byte = byteOf '.' then readFraction negative significand 0 rest
      else if byte = byteOf 'e' || byte = byteOf 'E' then
        readExponent negative significand 0 rest
      else wholeNumber negative significand input
  | [] => wholeNumber negative significand input

/-- What follows a whole part that outgrew 64 bits by `excess` digits. -/
def readLongTail (negative : Bool) (significand : Nat) (excess : Nat) (input : Bytes) :
    Reading Json :=
  match input with
  | byte :: rest =>
      if byte = byteOf '.' then readFraction negative significand excess rest
      else readScale negative significand excess input
  | [] => readScale negative significand excess input

/-- A number after its sign.  A zero in front must be the only digit of the
whole part. -/
def readNumber (negative : Bool) (input : Bytes) : Reading Json :=
  match input with
  | [] => .incomplete
  | byte :: rest =>
      if byte = byteOf '0' then
        match rest with
        | next :: _ => if isDigitByte next then .malformed else readTail negative 0 rest
        | [] => readTail negative 0 rest
      else if isDigitByte byte then
        let after := input.dropWhile isDigitByte
        match appendDigits 0 (input.takeWhile isDigitByte) with
        | (significand, []) => readTail negative significand after
        | (significand, excess) => readLongTail negative significand excess.length after
      else .malformed

def hexValue? (byte : UInt8) : Option Nat :=
  if 0x30 ≤ byte && byte ≤ 0x39 then some (byte.toNat - 0x30)
  else if 0x61 ≤ byte && byte ≤ 0x66 then some (byte.toNat - 0x61 + 10)
  else if 0x41 ≤ byte && byte ≤ 0x46 then some (byte.toNat - 0x41 + 10)
  else none

/-- Four hexadecimal digits. -/
def readHex : Bytes → Reading Nat
  | a :: b :: c :: d :: rest =>
      match hexValue? a, hexValue? b, hexValue? c, hexValue? d with
      | some a, some b, some c, some d => .complete (((a * 16 + b) * 16 + c) * 16 + d) rest
      | _, _, _, _ => .malformed
  | _ => .incomplete

/-- The second half of a character written as two escapes. -/
def readLowHalf (high : Nat) : Bytes → Reading Char
  | [] => .incomplete
  | slash :: rest =>
      if slash = byteOf '\\' then
        match rest with
        | [] => .incomplete
        | letter :: digits =>
            if letter = byteOf 'u' then
              (readHex digits).bind fun low rest =>
                if 0xDC00 ≤ low && low ≤ 0xDFFF then
                  .complete (Char.ofNat ((high - 0xD800) * 0x400 + (low - 0xDC00) + 0x10000)) rest
                else .malformed
            else .malformed
      else .malformed

/-- A character written by its number, after the letter that announces it. -/
def readCode (input : Bytes) : Reading Char :=
  (readHex input).bind fun code rest =>
    if 0xDC00 ≤ code && code ≤ 0xDFFF then .malformed
    else if 0xD800 ≤ code && code ≤ 0xDBFF then readLowHalf code rest
    else .complete (Char.ofNat code) rest

/-- An escape after its backslash. -/
def readEscape : Bytes → Reading Char
  | [] => .incomplete
  | letter :: rest =>
      if letter = byteOf '"' then .complete '"' rest
      else if letter = byteOf '\\' then .complete '\\' rest
      else if letter = byteOf '/' then .complete '/' rest
      else if letter = byteOf 'b' then .complete '\x08' rest
      else if letter = byteOf 'f' then .complete '\x0c' rest
      else if letter = byteOf 'n' then .complete '\n' rest
      else if letter = byteOf 'r' then .complete '\r' rest
      else if letter = byteOf 't' then .complete '\t' rest
      else if letter = byteOf 'u' then readCode rest
      else .malformed

/-- The rest of a string after its opening quote.  `gathered` holds the bytes
so far, last one first; only the closing quote decides whether they are text. -/
def readString : Nat → Bytes → Bytes → Reading String
  | 0, _, _ => .incomplete
  | _ + 1, _, [] => .incomplete
  | fuel + 1, gathered, byte :: rest =>
      if byte = byteOf '"' then
        match Text.ofBytes? gathered.reverse with
        | some text => .complete text rest
        | none => .malformed
      else if byte = byteOf '\\' then
        (readEscape rest).bind fun c rest =>
          readString fuel ((String.utf8EncodeChar c).reverse ++ gathered) rest
      else if byte < 0x20 then .malformed
      else readString fuel (byte :: gathered) rest

mutual

/-- One value.  `depth` more arrays and objects may be opened. -/
def readValue : Nat → Nat → Bytes → Reading Json
  | 0, _, _ => .incomplete
  | fuel + 1, depth, input =>
      match skipBlank input with
      | [] => .incomplete
      | byte :: rest =>
          if byte = byteOf 'n' then readLiteral .null [0x75, 0x6C, 0x6C] rest
          else if byte = byteOf 't' then readLiteral (.bool true) [0x72, 0x75, 0x65] rest
          else if byte = byteOf 'f' then readLiteral (.bool false) [0x61, 0x6C, 0x73, 0x65] rest
          else if byte = byteOf '-' then readNumber true rest
          else if isDigitByte byte then readNumber false (byte :: rest)
          else if byte = byteOf '"' then
            (readString (rest.length + 1) [] rest).bind fun text rest =>
              .complete (.string text) rest
          else if byte = byteOf '[' then
            match depth with
            | 0 => .malformed
            | depth + 1 => readArray fuel depth rest
          else if byte = byteOf '\x7b' then
            match depth with
            | 0 => .malformed
            | depth + 1 => readObject fuel depth rest
          else .malformed

/-- An array after its opening bracket. -/
def readArray : Nat → Nat → Bytes → Reading Json
  | 0, _, _ => .incomplete
  | fuel + 1, depth, input =>
      match skipBlank input with
      | [] => .incomplete
      | byte :: rest =>
          if byte = byteOf ']' then .complete (.array []) rest
          else
            (readItems fuel depth input).bind fun items rest => .complete (.array items) rest

/-- One item or more, and the closing bracket. -/
def readItems : Nat → Nat → Bytes → Reading (List Json)
  | 0, _, _ => .incomplete
  | fuel + 1, depth, input =>
      (readValue fuel depth input).bind fun item rest =>
        match skipBlank rest with
        | [] => .incomplete
        | byte :: rest =>
            if byte = byteOf ']' then .complete [item] rest
            else if byte = byteOf ',' then
              (readItems fuel depth rest).bind fun items rest => .complete (item :: items) rest
            else .malformed

/-- An object after its opening brace. -/
def readObject : Nat → Nat → Bytes → Reading Json
  | 0, _, _ => .incomplete
  | fuel + 1, depth, input =>
      match skipBlank input with
      | [] => .incomplete
      | byte :: rest =>
          if byte = byteOf '\x7d' then .complete (.object []) rest
          else
            (readMembers fuel depth input).bind fun members rest =>
              .complete (.object (Dictionary.ofPairs members)) rest

/-- One member or more, and the closing brace. -/
def readMembers : Nat → Nat → Bytes → Reading (List (String × Json))
  | 0, _, _ => .incomplete
  | fuel + 1, depth, input =>
      match skipBlank input with
      | [] => .incomplete
      | quote :: rest =>
          if quote = byteOf '"' then
            (readString (rest.length + 1) [] rest).bind fun name rest =>
              match skipBlank rest with
              | [] => .incomplete
              | colon :: rest =>
                  if colon = byteOf ':' then
                    (readValue fuel depth rest).bind fun value rest =>
                      match skipBlank rest with
                      | [] => .incomplete
                      | byte :: rest =>
                          if byte = byteOf '\x7d' then .complete [(name, value)] rest
                          else if byte = byteOf ',' then
                            (readMembers fuel depth rest).bind fun members rest =>
                              .complete ((name, value) :: members) rest
                          else .malformed
                  else .malformed
          else .malformed

end

/-- Reads one value from the front of the bytes.  Of three calls in a row at
least one takes a byte. -/
def read (input : Bytes) : Reading Json :=
  readValue (3 * input.length + 3) maxDepth input

/-- The value of a text that holds one value and blanks around it. -/
def parse? (text : String) : Option Json :=
  match read (Text.bytes text) with
  | .complete value rest => if (skipBlank rest).isEmpty then some value else none
  | _ => none

end SwitchShell.Json
