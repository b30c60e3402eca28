import Jianpu.Number.Amount

set_option autoImplicit false

/-!
The arithmetic that durations, times and coordinates are computed in. Definitions that compute with
them take any `Scalar`: the program runs them on binary64 numbers (and coordinates on `Option
Amount`, since a layout may be given whole numbers), and statements about them read them over the
exact rationals.
-/
namespace Jianpu.Number

/-- Why a number could not be used. -/
inductive Fault where
  /-- A division by zero. -/
  | divisionByZero
  /-- A number too large for the form it was asked in. -/
  | tooLarge
  /-- A value that is not a number, or a logarithm of a number that is not positive. -/
  | undefined
  deriving Repr, DecidableEq

/-- Numbers with whole numbers, decimal constants, sum, difference, product and comparison. -/
class Scalar (α : Type) extends Add α, Sub α, Mul α where
  /-- A whole number. -/
  ofInt : Int → α
  /-- The constant `digits / 10 ^ places`, as a measured number. -/
  decimal : (digits places : Nat) → α
  /-- Strict order. -/
  less : α → α → Bool

/-- Numbers that can be rounded to whole numbers and divided. -/
class Divisible (α : Type) extends Div α where
  /-- True of zero. -/
  isZero : α → Bool
  /-- The nearest whole number, ties to the even one. -/
  nearest : α → Except Fault Int
  /-- The whole part. -/
  wholePart : α → Except Fault Int

namespace Scalar

variable {α : Type} [Scalar α]

/-- Zero as a measured number. -/
def zero : α := decimal 0 0

/-- The larger of two numbers, the first unless the second is above it. -/
def larger (first second : α) : α :=
  if less first second then second else first

/-- The sum of a list, from the left. -/
def sum (values : List α) : α :=
  values.foldl (· + ·) zero

end Scalar

instance : Scalar Rat where
  ofInt n := n
  decimal digits places := (digits : Rat) / (10 : Rat) ^ places
  less x y := x < y

instance : Divisible Rat where
  isZero x := x = 0
  nearest x := .ok (nearestEven x)
  wholePart x := .ok (Number.wholePart x)

instance : Scalar Float where
  ofInt n := Binary64.nearest n
  decimal digits places := Float.ofScientific digits true places
  less x y := x < y

/-- The fault of asking a number that is not finite for a whole number. -/
def Fault.ofNonFinite (x : Float) : Fault :=
  if x.isNaN then .undefined else .tooLarge

instance : Divisible Float where
  isZero x := x == 0
  nearest x :=
    match Binary64.value? x with
    | some exact => .ok (nearestEven exact)
    | none => .error (.ofNonFinite x)
  wholePart x :=
    match Binary64.value? x with
    | some exact => .ok (Number.wholePart exact)
    | none => .error (.ofNonFinite x)

/-- A result that is missing once a whole number was too large for binary64. -/
abbrev Coordinate := Option Amount

/-- Applies an operation on amounts where both operands are present. -/
def Coordinate.combine (exact : Int → Int → Int) (rounded : Float → Float → Float)
    (left right : Coordinate) : Coordinate := do
  Amount.combine exact rounded (← left) (← right)

instance : Scalar Coordinate where
  add := Coordinate.combine (· + ·) (· + ·)
  sub := Coordinate.combine (· - ·) (· - ·)
  mul := Coordinate.combine (· * ·) (· * ·)
  ofInt n := some (.whole n)
  decimal digits places := some (.real (Float.ofScientific digits true places))
  less left right :=
    match left, right with
    | some x, some y => x.less y
    | none, _ => false
    | some _, none => true

/-- The quotient of two amounts. That of two whole numbers is rounded once; where it or an operand is
beyond the range of binary64, there is none. -/
def Amount.quotient : Amount → Amount → Option Amount
  | .whole m, .whole n => (Binary64.nearest? ((m : Rat) / n)).map .real
  | left, right => do
    let x ← left.toFloat?
    let y ← right.toFloat?
    return .real (x / y)

instance : Divisible Coordinate where
  div left right := do Amount.quotient (← left) (← right)
  isZero x := x.any Amount.isZero
  nearest
    | some (.whole n) => .ok n
    | some (.real x) => Divisible.nearest x
    | none => .error .tooLarge
  wholePart
    | some (.whole n) => .ok n
    | some (.real x) => Divisible.wholePart x
    | none => .error .tooLarge

end Jianpu.Number
