import Jianpu.Number.Scalar

set_option autoImplicit false

/-!
Measured values of a recording: times, frequencies and clarities. They are compared exactly, while a
sum or a difference may be too large for the form it has to take. The program measures in amounts,
whole or binary64; statements about it read exact rationals, of which every sum is there.
-/
namespace Jianpu.Number

/-- Values with decimal constants, a strict order, and sums and differences that may fail. -/
class Measure (α : Type) where
  /-- The constant `digits / 10 ^ places`. -/
  decimal : (digits places : Nat) → α
  /-- Strict order. -/
  less : α → α → Bool
  /-- The sum. -/
  plus : α → α → Except Fault α
  /-- The difference. -/
  minus : α → α → Except Fault α

instance : Measure Rat where
  decimal digits places := (digits : Rat) / (10 : Rat) ^ places
  less x y := x < y
  plus x y := .ok (x + y)
  minus x y := .ok (x - y)

/-- A result of arithmetic on amounts, with its fault where there is none. -/
def Amount.checked (result : Option Amount) : Except Fault Amount :=
  result.elim (.error .tooLarge) .ok

instance : Measure Amount where
  decimal digits places := .real (Float.ofScientific digits true places)
  less := Amount.less
  plus x y := Amount.checked (Amount.combine (· + ·) (· + ·) x y)
  minus x y := Amount.checked (Amount.combine (· - ·) (· - ·) x y)

end Jianpu.Number
