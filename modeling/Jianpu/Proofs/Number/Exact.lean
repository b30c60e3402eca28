import Jianpu.Number.Scalar
import Mathlib.Algebra.BigOperators.Group.List.Basic
import Mathlib.Algebra.Order.Field.Rat
import Mathlib.Tactic.NormNum

/-! The scalars of statements: exact rationals, on which the operations of scalars are those
of arithmetic. -/

set_option autoImplicit false

namespace Jianpu.Number

theorem zero_rat : (Scalar.zero : Rat) = 0 := by
  norm_num [Scalar.zero, Scalar.decimal]

theorem larger_rat (first second : Rat) : Scalar.larger first second = max first second := by
  rw [Scalar.larger, max_def]
  by_cases above : first < second
  · rw [if_pos (by simpa [Scalar.less] using above), if_pos above.le]
  · rw [if_neg (by simpa [Scalar.less] using above)]
    split
    · exact le_antisymm ‹_› (not_lt.mp above)
    · rfl

theorem sum_rat (values : List Rat) : Scalar.sum values = values.sum := by
  have running : ∀ start : Rat, values.foldl (· + ·) start = start + values.sum := by
    induction values with
    | nil => simp
    | cons value values ih =>
        intro start
        rw [List.foldl_cons, ih, List.sum_cons, add_assoc]
  exact (running _).trans (by rw [zero_rat, zero_add])

end Jianpu.Number
