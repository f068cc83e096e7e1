namespace SwitchShell

/-! The fewest decimal digits that single out a 64-bit floating-point number.

A finite number `mantissa · 2 ^ twos` stands for all reals nearer to it than to
its neighbours; the two ends belong to it when the mantissa is even.  Among the
decimals `digits · 10 ^ tens` of that interval the shortest is the one with the
largest `tens`, and of two of those the nearer, an even one on a tie.  All
comparisons are between natural numbers.
-/

/-- The decimal number `digits · 10 ^ tens`. -/
structure Decimal where
  digits : Nat
  tens : Int
deriving DecidableEq, Repr

namespace Decimal

/-- The reals that round to one positive number.  The bounds and the number
itself are counted in units of `2 ^ twos`. -/
structure Interval where
  low : Nat
  value : Nat
  high : Nat
  twos : Int
  closed : Bool
deriving DecidableEq, Repr

/-- The interval of the number with the given bits, its sign left aside. -/
def Interval.ofBits (bits : Nat) : Interval :=
  let fraction := bits % Nat.pow 2 52
  let exponent : Nat := bits / Nat.pow 2 52 % Nat.pow 2 11
  let mantissa := if exponent = 0 then fraction else fraction + Nat.pow 2 52
  let twos : Int := if exponent = 0 then -1074 else (exponent : Int) - 1075
  let narrow := fraction == 0 && decide (1 < exponent)
  { low := 4 * mantissa - (if narrow then 1 else 2)
    value := 4 * mantissa
    high := 4 * mantissa + 2
    twos := twos - 2
    closed := mantissa % 2 == 0 }

/-- Puts `count · 2 ^ twos` and `digits · 10 ^ tens` on one scale. -/
def scaled (twos tens : Int) : Nat × Nat :=
  (Nat.pow 2 twos.toNat * Nat.pow 10 (-tens).toNat,
    Nat.pow 10 tens.toNat * Nat.pow 2 (-twos).toNat)

/-- The best decimal of the interval on the grid `10 ^ tens`, if it has one. -/
def Interval.onGrid? (interval : Interval) (tens : Int) : Option Decimal :=
  let (unit, grid) := scaled interval.twos tens
  let inside (digits : Nat) : Bool :=
    let point := digits * grid
    if interval.closed then
      interval.low * unit ≤ point && point ≤ interval.high * unit
    else interval.low * unit < point && point < interval.high * unit
  let exact := interval.value * unit
  let below := exact / grid
  let above := below + 1
  let pick (digits : Nat) : Option Decimal := some ⟨digits, tens⟩
  match inside below, inside above with
  | false, false => none
  | true, false => pick below
  | false, true => pick above
  | true, true =>
      let down := exact - below * grid
      let up := above * grid - exact
      if down < up || (down = up && below % 2 = 0) then pick below else pick above

/-- Tries coarser grids first, `count` of them from `tens` downward. -/
def Interval.search (interval : Interval) (tens : Int) : Nat → Decimal
  | 0 => ⟨0, 0⟩
  | count + 1 =>
      match interval.onGrid? tens with
      | some decimal => decimal
      | none => interval.search (tens - 1) count

/-- The shortest decimal of a positive number given by its bits.  No grid of
more than seventeen digits is needed, and the first grid tried is coarser than
the number. -/
def shortest (bits : Nat) : Decimal :=
  let interval := Interval.ofBits bits
  let start := ((interval.value.log2 : Int) + interval.twos) * 30103 / 100000 + 2
  interval.search start 24

/-- How a number is written around its digits.  Numbers in the range from
`10 ^ smallest` to `10 ^ largest` have no exponent. -/
structure Layout where
  smallest : Int
  largest : Int
  /-- Stands before an exponent that is not negative. -/
  plus : String

/-- An exponent with its sign. -/
def Layout.exponent (layout : Layout) (exponent : Int) : String :=
  "e" ++ (if 0 ≤ exponent then layout.plus else "") ++ toString exponent

/-- Digits with a point: at least one digit stands on each side of it. -/
def Layout.write (layout : Layout) (decimal : Decimal) : String :=
  let digits := toString decimal.digits
  let count := digits.length
  let point : Int := count + decimal.tens
  if 0 ≤ decimal.tens ∧ point ≤ layout.largest then
    digits ++ String.ofList (List.replicate decimal.tens.toNat '0') ++ ".0"
  else if 0 < point ∧ point ≤ layout.largest then
    String.ofList (digits.toList.take point.toNat) ++ "." ++
      String.ofList (digits.toList.drop point.toNat)
  else if layout.smallest < point ∧ point ≤ 0 then
    "0." ++ String.ofList (List.replicate (-point).toNat '0') ++ digits
  else
    let head := String.ofList (digits.toList.take 1)
    let tail := String.ofList (digits.toList.drop 1)
    (if count = 1 then head else head ++ "." ++ tail) ++ layout.exponent (point - 1)

end Decimal

end SwitchShell
