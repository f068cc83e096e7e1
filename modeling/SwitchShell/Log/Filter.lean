import SwitchShell.Log.Pattern
import SwitchShell.Text.Offset
import SwitchShell.Text.Words

namespace SwitchShell.Log

/-- Why a filter cannot be used. -/
inductive FilterTrouble where
  | directive
  | level
  | field (trouble : Pattern.Trouble)
  /-- A part of a directive begins or ends inside a character. -/
  | brokenCharacter
deriving DecidableEq, Repr

def FilterTrouble.message : FilterTrouble → String
  | .directive => "invalid filter directive"
  | .level =>
      "error parsing level filter: expected one of \"off\", \"error\", \"warn\", \"info\", " ++
        "\"debug\", \"trace\", or a number 0-5"
  | .field .malformed => "invalid field filter: error building NFA"
  | .field .unicodeEdge =>
      "invalid field filter: unsupported regex feature for DFAs: cannot build DFAs for " ++
        "regexes with Unicode word boundaries; switch to ASCII word boundaries, or " ++
        "heuristically enable Unicode word boundaries or use a different regex engine"
  | .brokenCharacter => "offset inside a character"

def levels : List String := ["off", "error", "warn", "info", "debug", "trace"]

/-- A level is a word in any case or its number. -/
def isLevel (text : String) : Bool :=
  text.isEmpty || levels.contains text.toLower || (Text.unsigned? 5 text).isSome

/-- The characters after a sign, if there is one. -/
def dropSign : List Char → List Char
  | '+' :: rest => rest
  | '-' :: rest => rest
  | text => text

/-- Nothing, or the exponent of a number. -/
def isExponent : List Char → Bool
  | [] => true
  | c :: rest =>
      let digits := dropSign rest
      (c = 'e' || c = 'E') && !digits.isEmpty && digits.all Char.isDigit

/-- Digits with a point among them, perhaps, and an exponent after them. -/
def isDecimal (text : List Char) : Bool :=
  let whole := text.takeWhile Char.isDigit
  match text.dropWhile Char.isDigit with
  | '.' :: rest =>
      !(whole.isEmpty && (rest.takeWhile Char.isDigit).isEmpty) &&
        isExponent (rest.dropWhile Char.isDigit)
  | rest => !whole.isEmpty && isExponent rest

/-- A number with a sign or without. -/
def isNumber (text : List Char) : Bool :=
  let unsigned := dropSign text
  ["inf", "infinity", "nan"].contains (String.ofList unsigned).toLower || isDecimal unsigned

/-- What is wrong with a field.  The value between its first two equals signs is
a number or else a pattern. -/
def fieldTrouble? (field : List Char) : Option FilterTrouble :=
  if field.isEmpty then some .directive
  else
    match Text.splitAt '=' field with
    | _ :: value :: _ => if isNumber value then none else (Pattern.trouble? value).map .field
    | _ => none

/-- Where the reading of a directive stands, and the offset at which the part
that is being read begins. -/
inductive Place where
  | start
  | target
  | span (first : Nat)
  | field (first : Nat)
  | afterField
  | afterSpan
  | level (first : Nat)
deriving DecidableEq, Repr

/-- A directive may begin with a letter or digit, or with one of `-`, `:`, `_`. -/
def opensTarget (c : Char) : Bool :=
  c = '-' || c = ':' || c = '_' || Text.isAlphanumeric c

def part (directive : List Char) (first stop : Nat) : Except FilterTrouble (List Char) :=
  match Text.slice? first stop directive with
  | some part => .ok part
  | none => .error .brokenCharacter

/-- The next place, after a part that can be cut out. -/
def moveOn (directive : List Char) (first stop : Nat) (place : Place) :
    Except FilterTrouble Place :=
  (part directive first stop).map fun _ => place

/-- The place after the character at an offset. -/
def Place.after (directive : List Char) (offset : Nat) (c : Char) :
    Place → Except FilterTrouble Place
  | .start =>
      if c = '[' then .ok (.span (offset + 1))
      else if opensTarget c then .ok .target
      else .error .directive
  | .target =>
      if c = '=' then moveOn directive 0 offset (.level (offset + 1))
      else if c = '[' then moveOn directive 0 offset (.span (offset + 1))
      else .ok .target
  | .span first =>
      if c = ']' then moveOn directive first offset .afterSpan
      else if c = '\x7b' then moveOn directive first offset (.field (offset + 1))
      else .ok (.span first)
  | .field first =>
      if c = '\x7d' then
        match part directive first offset with
        | .error trouble => .error trouble
        | .ok text =>
            match fieldTrouble? text with
            | some trouble => .error trouble
            | none => .ok .afterField
      else .ok (.field first)
  | .afterField => if c = ']' then .ok .afterSpan else .error .directive
  | .afterSpan => if c = '=' then .ok (.level (offset + 1)) else .error .directive
  | .level first => .ok (.level first)

def follow (directive : List Char) : Nat → Place → List Char → Except FilterTrouble Place
  | _, place, [] => .ok place
  | offset, place, c :: rest =>
      match place.after directive offset c with
      | .error trouble => .error trouble
      | .ok place => follow directive (offset + c.utf8Size) place rest

/-- What is wrong with the level that begins at an offset. -/
def levelTrouble? (directive : List Char) (first : Nat) : Option FilterTrouble :=
  match part directive first (Text.byteLength directive) with
  | .error trouble => some trouble
  | .ok level => if isLevel (String.ofList level) then none else some .level

def directiveTrouble? (directive : List Char) : Option FilterTrouble :=
  match follow directive 0 .start (Text.trimEnd (Text.trimStart directive)) with
  | .error trouble => some trouble
  | .ok .target => none
  | .ok .afterSpan => none
  | .ok (.level first) => levelTrouble? directive first
  | .ok _ => some .directive

/-- What is wrong with the first directive that cannot be used. -/
def filterTrouble? (filter : String) : Option FilterTrouble :=
  (Text.splitAt ',' filter.toList).findSome? fun directive =>
    if directive.isEmpty then none else directiveTrouble? directive

end SwitchShell.Log
