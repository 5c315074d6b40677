import Lugha.Number.BinaryFraction

/-!
# The decimal text of doubles

A double is written with the fewest significant digits that read back to it;
of the decimals with that many digits the nearest is taken, and of two equally
near ones the larger. The digits are found with exact natural numbers: the
decimals that read back to a double are those in an interval around it, and on
the grid of `k`-digit decimals only the two neighbours of the double can be the
nearest in that interval.
-/

namespace Lugha

/-- A power of ten. -/
def tenTo (n : Nat) : Nat := Nat.pow 10 n

/-- The number `digits * 10 ^ scale`. -/
structure Decimal where
  digits : Nat
  scale : Int
deriving DecidableEq, Repr

/-- The number of decimal digits of a natural number. -/
def digitCount (n : Nat) : Nat :=
  (Nat.toDigits 10 n).length

namespace BinaryFraction

/-- The numerator of a fraction over `denominator`. -/
def numerator (d : BinaryFraction) : Nat := d.mantissa * twoTo d.exponent.toNat

/-- The power of two below a fraction. -/
def denominator (d : BinaryFraction) : Nat := twoTo (-d.exponent).toNat

/-- The power of ten just above a positive fraction: the place of its first digit. -/
def magnitude (d : BinaryFraction) : Int :=
  if d.denominator ≤ d.numerator then
    digitCount (d.numerator / d.denominator)
  else
    1 - (digitCount (d.denominator / d.numerator) : Int)

/-- Whether the gap below a double is half the gap above it. -/
def narrowBelow (d : BinaryFraction) : Bool :=
  d.mantissa == twoTo 52 && decide (-1074 < d.exponent)

/-- The decimal with `k` significant digits that reads back to the double, if
there is one; the nearest one, and the larger of two equally near ones. -/
def decimalOf? (d : BinaryFraction) (k : Nat) : Option Decimal :=
  let scale := d.magnitude - k
  -- All numbers are counted in quarters of the unit of the last binary place.
  let binary := twoTo (d.exponent - 2).toNat * tenTo (-scale).toNat
  let unit := tenTo scale.toNat * twoTo (2 - d.exponent).toNat
  let value := 4 * d.mantissa * binary
  let low := (4 * d.mantissa - if d.narrowBelow then 1 else 2) * binary
  let high := (4 * d.mantissa + 2) * binary
  let closed := d.mantissa % 2 == 0
  let below := value / unit
  let above := below + 1
  let belowReads := decide (low < below * unit) || closed && low == below * unit
  let aboveReads := decide (above * unit < high) || closed && above * unit == high
  if belowReads && (!aboveReads || decide (value - below * unit < above * unit - value)) then
    some ⟨below, scale⟩
  else if aboveReads then some ⟨above, scale⟩
  else none

end BinaryFraction

namespace Decimal

/-- Drops the zeros at the end of the digits; at most `fuel` of them. -/
def trim : Nat → Decimal → Decimal
  | 0, d => d
  | fuel + 1, d =>
    if d.digits ≠ 0 ∧ d.digits % 10 = 0 then trim fuel ⟨d.digits / 10, d.scale + 1⟩ else d

/-- The shortest decimal that reads back to a double: no double needs more than
17 digits. -/
def shortest (d : BinaryFraction) : Decimal :=
  if d.mantissa = 0 then ⟨0, 0⟩
  else
    match (List.range 17).findSome? fun i => d.decimalOf? (i + 1) with
    | some r => r.trim 17
    | none => ⟨0, 0⟩

/-- A row of zeros. -/
def zeros (n : Nat) : String := String.ofList (List.replicate n '0')

/-- Positional notation, without an exponent. -/
def positional (d : Decimal) : String :=
  let digits := toString d.digits
  if 0 ≤ d.scale then
    if d.digits = 0 then "0" else digits ++ zeros d.scale.toNat
  else
    let places := (-d.scale).toNat
    if places < digits.length then
      let whole := digits.length - places
      String.ofList (digits.toList.take whole) ++ "." ++ String.ofList (digits.toList.drop whole)
    else
      "0." ++ zeros (places - digits.length) ++ digits

/-- The power of ten of the first digit. -/
def leading (d : Decimal) : Int :=
  d.scale + (digitCount d.digits : Int) - 1

/-- Exponent notation: one digit before the point. -/
def scientific (d : Decimal) : String :=
  let mantissa :=
    match (toString d.digits).toList with
    | [] => ""
    | [c] => String.ofList [c]
    | c :: rest => String.ofList (c :: '.' :: rest)
  mantissa ++ "e" ++ toString d.leading

end Decimal

namespace Number

/-- Writes a number whose absolute value is written by `magnitude`. -/
def render (magnitude : BinaryFraction → String) : Number → String
  | .undefined => "NaN"
  | .infinite negative => if negative then "-inf" else "inf"
  | .finite d => (if d.negative then "-" else "") ++ magnitude d

/-- A number as it is written in a program: positional. -/
def plain (n : Number) : String :=
  n.render fun d => (Decimal.shortest d).positional

/-- A number as it is shown by a program: integers below `10 ^ 15` have no sign
of zero, all else is positional. -/
def shown (n : Number) : String :=
  match n with
  | .finite d =>
    match d.toInt? with
    | some i => if i.natAbs < tenTo 15 then toString i else n.plain
    | none => n.plain
  | _ => n.plain

/-- A number as it is listed for inspection: always with a point or an exponent,
and positional from `10 ^ -4` up to `10 ^ 16`. -/
def inspected (n : Number) : String :=
  n.render fun d =>
    let r := Decimal.shortest d
    if d.mantissa = 0 then "0.0"
    else if -4 ≤ r.leading ∧ r.leading < 16 then
      if 0 ≤ r.scale then r.positional ++ ".0" else r.positional
    else r.scientific

/-- A number with two places; a tie goes to the even neighbour. -/
def twoPlaces (n : Number) : String :=
  n.render fun d =>
    let hundredths := roundDiv (d.numerator * 100) d.denominator
    let places := hundredths % 100
    toString (hundredths / 100) ++ "." ++ (if places < 10 then "0" else "") ++ toString places

end Number

/-- The natural number that a row of digits stands for. -/
def digitsValue (cs : List Char) : Nat :=
  cs.foldl (fun n c => 10 * n + (c.toNat - '0'.toNat)) 0

/-- The double nearest to the decimal with the given digits before and after the point. -/
def decimalValue (whole fraction : List Char) : Float :=
  (BinaryFraction.nearest (digitsValue (whole ++ fraction)) (tenTo fraction.length)).toFloat

end Lugha
