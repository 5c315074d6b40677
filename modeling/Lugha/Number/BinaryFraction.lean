/-!
# Doubles as binary fractions

A finite double is a sign, a natural number and a power of two. The decoding of
the bits, its inverse on fractions that a double can hold, the double nearest to
a quotient, and the remainder of a division, which is exact because it never
needs more digits than its operands.
-/

namespace Lugha

/-- A power of two. -/
def twoTo (n : Nat) : Nat := Nat.pow 2 n

/-- The number `± mantissa * 2 ^ exponent`. -/
structure BinaryFraction where
  negative : Bool
  mantissa : Nat
  exponent : Int
deriving DecidableEq, Repr

/-- What the bits of a double stand for. -/
inductive Number where
  | undefined
  | infinite (negative : Bool)
  | finite (d : BinaryFraction)
deriving DecidableEq, Repr

namespace Number

/-- Reads the sign, the eleven exponent bits and the fraction of a double. -/
def ofFloat (x : Float) : Number :=
  let bits := x.toBits.toNat
  let negative := decide (bits / twoTo 63 = 1)
  let biased : Nat := bits / twoTo 52 % 2048
  let fraction : Nat := bits % twoTo 52
  if biased = 2047 then
    if fraction = 0 then .infinite negative else .undefined
  else if biased = 0 then
    .finite ⟨negative, fraction, -1074⟩
  else
    .finite ⟨negative, fraction + twoTo 52, (biased : Int) - 1075⟩

end Number

/-- The quotient of natural numbers, rounded to the nearest; a tie goes to the
even neighbour. -/
def roundDiv (num den : Nat) : Nat :=
  let q := num / den
  let r := num % den
  if den < 2 * r ∨ 2 * r = den ∧ q % 2 = 1 then q + 1 else q

namespace BinaryFraction

/-- The exponent at which a fraction is stored: 53 significant bits, and no
exponent below the least one. -/
def storedExponent (d : BinaryFraction) : Int :=
  max (d.exponent + (d.mantissa.log2 + 1 : Nat) - 53) (-1074)

/-- The double with the value of a fraction that a double can hold; infinity if
the fraction is above all doubles. -/
def toFloat (d : BinaryFraction) : Float :=
  let e := d.storedExponent
  let m :=
    if e ≤ d.exponent then d.mantissa * twoTo (d.exponent - e).toNat
    else d.mantissa / twoTo (e - d.exponent).toNat
  let magnitude := if m < twoTo 52 then m else (e + 1075).toNat * twoTo 52 + (m - twoTo 52)
  Float.ofBits (min magnitude (2047 * twoTo 52) + if d.negative then twoTo 63 else 0).toUInt64

/-- The mantissa of a fraction when it is written with exponent `e`, at most its own. -/
def mantissaAt (d : BinaryFraction) (e : Int) : Nat :=
  d.mantissa * twoTo (d.exponent - e).toNat

/-- The remainder of a division that rounds toward zero; it has the dividend's sign. -/
def rem (a b : BinaryFraction) : BinaryFraction :=
  let e := min a.exponent b.exponent
  ⟨a.negative, a.mantissaAt e % b.mantissaAt e, e⟩

/-- The integer that a fraction is equal to, if it is one. -/
def toInt? (d : BinaryFraction) : Option Int :=
  let signed (n : Nat) : Int := if d.negative then -(n : Int) else n
  if 0 ≤ d.exponent then
    some (signed (d.mantissa * twoTo d.exponent.toNat))
  else
    let unit := twoTo (-d.exponent).toNat
    if d.mantissa % unit = 0 then some (signed (d.mantissa / unit)) else none

/-- The fraction of at most 53 bits, with an exponent that a double allows, that is
nearest to a quotient; a tie goes to the even neighbour. -/
def nearest (num den : Nat) : BinaryFraction :=
  let guess : Int := (num.log2 : Int) - den.log2 - 52
  let scaled (e : Int) : Nat × Nat := (num * twoTo (-e).toNat, den * twoTo e.toNat)
  let (n, d) := scaled guess
  let e := max (if n < d * twoTo 52 then guess - 1 else guess) (-1074)
  let (n, d) := scaled e
  ⟨false, roundDiv n d, e⟩

end BinaryFraction

/-- The remainder of a division of doubles. It is exact; an infinite dividend or
an undefined operand leaves it undefined, an infinite divisor leaves the dividend. -/
def remainder (x y : Float) : Float :=
  match Number.ofFloat x, Number.ofFloat y with
  | .finite a, .finite b => (a.rem b).toFloat
  | .finite _, .infinite _ => x
  | _, _ => 0.0 / 0.0

end Lugha
