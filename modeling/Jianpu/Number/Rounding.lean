set_option autoImplicit false

/-!
Rounding of exact rationals to whole numbers, and the order of magnitude of a positive rational.
Every place of the library that turns a length or a coordinate into a whole number goes through one
of the functions here, so that a tie is settled in a single place.
-/
namespace Jianpu.Number

/-- The whole number nearest to `value`. A value halfway between two whole numbers goes to the even
one of them. -/
def nearestEven (value : Rat) : Int :=
  let below := value.floor
  let rest := value - below
  if rest < 1 / 2 then below
  else if 1 / 2 < rest then below + 1
  else if below % 2 = 0 then below
  else below + 1

/-- The whole part of `value`: what is left when the fraction is dropped, on either side of zero. -/
def wholePart (value : Rat) : Int :=
  if value < 0 then value.ceil else value.floor

/-- The power `k` with `2 ^ k ≤ value < 2 ^ (k + 1)`, for a positive value. -/
def binaryOrder (value : Rat) : Int :=
  let guess : Int := (value.num.natAbs.log2 : Int) - (value.den.log2 : Int)
  if (2 : Rat) ^ guess ≤ value then guess else guess - 1

/-- The power `k` with `10 ^ k ≤ value < 10 ^ (k + 1)`, for a positive value. The binary order fixes it
up to one, and a comparison on either side settles the rest. -/
def decimalOrder (value : Rat) : Int :=
  let guess := binaryOrder value * 30103 / 100000
  if (10 : Rat) ^ (guess + 1) ≤ value then guess + 1
  else if (10 : Rat) ^ guess ≤ value then guess
  else guess - 1

end Jianpu.Number
