import Jianpu.Number.Rounding

set_option autoImplicit false

/-!
Binary64 numbers as exact rationals and back. `value?` reads the fields of the bit pattern, and
`nearest?` goes the other way: it rounds to the nearest binary64 number with ties to the even
mantissa, and refuses what lies beyond the largest finite one.
-/
namespace Jianpu.Number.Binary64

/-- The number of fractions, which is the weight of the exponent in a bit pattern: two to the 52nd. -/
def exponentWeight : Nat := 0x10000000000000

/-- The weight of the sign in a bit pattern: two to the 63rd. -/
def signWeight : Nat := 0x8000000000000000

/-- The exact value of a finite number; `none` for an infinity and for what is not a number. -/
def value? (x : Float) : Option Rat :=
  let bits := x.toBits.toNat
  let exponent := bits / exponentWeight % 2048
  let fraction := bits % exponentWeight
  if exponent = 2047 then none
  else
    let mantissa : Nat := if exponent = 0 then fraction else fraction + exponentWeight
    let power : Int := (max exponent 1 : Nat) - 1075
    let magnitude : Rat := (mantissa : Rat) * (2 : Rat) ^ power
    some (if bits / signWeight = 1 then -magnitude else magnitude)

/-- True for negative numbers and for the negative zero. -/
def signBit (x : Float) : Bool :=
  x.toBits.toNat / signWeight = 1

/-- The bit pattern of the nearest number to a positive value, when that number is finite. A mantissa
that rounds up to the next power of two carries into the exponent field. -/
def positiveBits? (magnitude : Rat) : Option Nat :=
  let power := max (binaryOrder magnitude - 52) (-1074)
  let mantissa := (nearestEven (magnitude / (2 : Rat) ^ power)).toNat
  let bits := (power + 1074).toNat * exponentWeight + mantissa
  if bits < 2047 * exponentWeight then some bits else none

/-- The nearest binary64 number, ties to the even mantissa; `none` beyond the finite range. -/
def nearest? (value : Rat) : Option Float :=
  if value = 0 then some 0
  else if value < 0 then
    (positiveBits? (-value)).map fun bits => Float.ofBits (bits + signWeight).toUInt64
  else
    (positiveBits? value).map fun bits => Float.ofBits bits.toUInt64

/-- A whole number as a binary64 number; `none` beyond the finite range. -/
def ofInt? (n : Int) : Option Float :=
  nearest? n

/-- Positive infinity. -/
def infinity : Float := Float.ofBits 0x7FF0000000000000

/-- The binary64 number nearest to a rational, an infinity beyond the finite range. -/
def nearest (value : Rat) : Float :=
  (nearest? value).getD (if value < 0 then -infinity else infinity)

/-- The number written as `coefficient · 10 ^ exponent`. An exponent far outside the range of binary64
is settled without forming the power, so that a short text cannot ask for a huge number. -/
def ofScientific (coefficient : Nat) (exponent : Int) : Float :=
  if coefficient = 0 then 0
  else
    let order : Int := exponent + ((coefficient.log2 : Int) * 30103 / 100000)
    if order > 400 then infinity
    else if order < -400 then 0
    else nearest ((coefficient : Rat) * (10 : Rat) ^ exponent)

end Jianpu.Number.Binary64
