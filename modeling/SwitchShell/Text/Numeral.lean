namespace SwitchShell.Text

def digitValue (c : Char) : Nat :=
  c.toNat - '0'.toNat

/-- The value of a run of decimal digits, most significant first. -/
def decimalValue (digits : List Char) : Nat :=
  digits.foldl (fun value c => 10 * value + digitValue c) 0

/-- The number written by one or more digits and nothing else. -/
def natural? (text : String) : Option Nat :=
  let digits := text.toList
  if digits.isEmpty || !digits.all Char.isDigit then none else some (decimalValue digits)

/-- An unsigned number of at most `largest`; a plus sign may stand in front. -/
def unsigned? (largest : Nat) (text : String) : Option Nat :=
  let digits :=
    match text.toList with
    | '+' :: rest => rest
    | other => other
  if digits.isEmpty || !digits.all Char.isDigit then none
  else
    let value := decimalValue digits
    if value ≤ largest then some value else none

def maxUnsigned64 : Nat := 18446744073709551615

def maxSigned64 : Nat := 9223372036854775807

/-- Zeros in front up to a number of digits. -/
def padZeros (width value : Nat) : String :=
  let digits := toString value
  String.ofList (List.replicate (width - digits.length) '0') ++ digits

end SwitchShell.Text
