set_option autoImplicit false

/-!
Whole numbers as other programs hand them over. Where a truth value stands for a whole number, it counts
as one or zero, and stays a truth value when it is handed on.
-/
namespace Jianpu.Number

/-- A whole number, written as a number or as a truth value. -/
inductive Whole where
  | number (n : Int)
  | truth (b : Bool)
  deriving Repr, DecidableEq

namespace Whole

/-- The number that counts. -/
def value : Whole → Int
  | number n => n
  | truth b => if b then 1 else 0

instance : Coe Int Whole := ⟨number⟩

end Whole

end Jianpu.Number
