import Jianpu.Number.Decimal

set_option autoImplicit false

/-!
Numbers as documents hold them: a whole number of any size, or a binary64 number. The two are told
apart by their spelling and stay apart in arithmetic. Where they meet, the whole number is rounded to
binary64, which fails when it is too large; `Option Amount` carries that failure.
-/
namespace Jianpu.Number

/-- A whole number of any size or a binary64 number. -/
inductive Amount where
  | whole (n : Int)
  | real (x : Float)

namespace Amount

/-- A whole number where a numeral is expected. -/
instance (n : Nat) : OfNat Amount n := ⟨.whole n⟩

instance : Coe Int Amount := ⟨.whole⟩

instance : Inhabited Amount := ⟨.whole 0⟩

/-- The exact value; `none` for infinities and for what is not a number. -/
def value? : Amount → Option Rat
  | .whole n => some n
  | .real x => Binary64.value? x

/-- The number as binary64; `none` for a whole number beyond the finite range. -/
def toFloat? : Amount → Option Float
  | .whole n => Binary64.ofInt? n
  | .real x => some x

/-- The number as binary64, an infinity for a whole number beyond the finite range. -/
def toFloat : Amount → Float
  | .whole n => Binary64.nearest n
  | .real x => x

/-- The whole number, if it is one. -/
def whole? : Amount → Option Int
  | .whole n => some n
  | .real _ => none

/-- Zero, of either kind and either sign. -/
def isZero : Amount → Bool
  | .whole n => n == 0
  | .real x => x == 0

/-- A whole number in decimal, a binary64 number in its shortest form. -/
def text : Amount → String
  | .whole n => toString n
  | .real x => Binary64.text x

/-- Same kind and same number; two binary64 numbers are compared by their bits. -/
def same : Amount → Amount → Bool
  | .whole m, .whole n => m == n
  | .real x, .real y => x.toBits == y.toBits
  | _, _ => false

/-- Whole numbers combine exactly; any other pair combines in binary64, if both fit. -/
def combine (exact : Int → Int → Int) (rounded : Float → Float → Float) :
    Amount → Amount → Option Amount
  | .whole m, .whole n => some (.whole (exact m n))
  | left, right => do
    let x ← left.toFloat?
    let y ← right.toFloat?
    return .real (rounded x y)

/-- A number added up `count` times, by one product. -/
def times (count : Nat) : Amount → Amount
  | .whole n => .whole (count * n)
  | .real x => .real (Binary64.nearest count * x)

/-- The order of the exact values. Nothing is below or above what is not a number. -/
def less (left right : Amount) : Bool :=
  match left, right with
  | .real x, .real y => x < y
  | left, right =>
    match left.value?, right.value? with
    | some x, some y => x < y
    | none, _ => left.toFloat < 0
    | some _, none => right.toFloat > 0

end Amount

end Jianpu.Number
