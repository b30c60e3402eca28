import Jianpu.Number.Rounding
import Mathlib.Algebra.Order.Field.Rat
import Mathlib.Tactic.Linarith
import Mathlib.Tactic.NormNum

/-! Rounding to the nearest whole number, said without the rounding: no whole
number is closer, and of two that are as close the even one is taken. -/

set_option autoImplicit false

namespace Jianpu.Number

/-- A whole number at most one half away from a value, and even if it is one half away. -/
def IsNearest (value : Rat) (n : Int) : Prop :=
  |value - n| ≤ 1 / 2 ∧ (|value - n| = 1 / 2 → n % 2 = 0)

theorem isNearest_nearestEven (value : Rat) : IsNearest value (nearestEven value) := by
  have lower : (value.floor : Rat) ≤ value := Rat.floor_le value
  have upper : value < value.floor + 1 := by exact_mod_cast Rat.lt_floor_add_one value
  unfold nearestEven
  dsimp only
  split
  · rename_i close
    refine ⟨abs_le.mpr ⟨by linarith, by linarith⟩, ?_⟩
    intro tie
    rw [abs_of_nonneg (by linarith)] at tie
    linarith
  split
  · rename_i far
    rw [IsNearest, Int.cast_add, Int.cast_one]
    refine ⟨abs_le.mpr ⟨by linarith, by linarith⟩, ?_⟩
    intro tie
    rw [abs_of_neg (by linarith)] at tie
    linarith
  · rename_i notClose notFar
    have half : value - value.floor = 1 / 2 :=
      le_antisymm (le_of_not_gt notFar) (le_of_not_gt notClose)
    split
    · rename_i even
      rw [IsNearest, half]
      exact ⟨by norm_num, fun _ => even⟩
    · rename_i odd
      have above : value - (value.floor + 1 : Int) = -(1 / 2) := by
        push_cast
        linarith
      rw [IsNearest, above]
      exact ⟨by norm_num, fun _ => by omega⟩

theorem IsNearest.mono {value other : Rat} {n m : Int} (first : IsNearest value n)
    (second : IsNearest other m) (ordered : value ≤ other) : n ≤ m := by
  obtain ⟨lower, -⟩ := abs_le.mp first.1
  obtain ⟨-, upper⟩ := abs_le.mp second.1
  by_contra beyond
  have next : (m : Rat) + 1 ≤ n := by exact_mod_cast not_le.mp beyond
  -- Both values lie halfway between the two numbers, and only one of these is even.
  have even := first.2 (by rw [show value - n = -(1 / 2) by linarith]; norm_num)
  have otherEven := second.2 (by rw [show other - m = 1 / 2 by linarith]; norm_num)
  have same : (n : Rat) = m + 1 := by linarith
  have succ : n = m + 1 := by exact_mod_cast same
  omega

theorem IsNearest.unique {value : Rat} {n m : Int} (first : IsNearest value n)
    (second : IsNearest value m) : n = m :=
  le_antisymm (first.mono second le_rfl) (second.mono first le_rfl)

theorem nearestEven_eq_iff {value : Rat} {n : Int} : nearestEven value = n ↔ IsNearest value n := by
  constructor
  · rintro rfl
    exact isNearest_nearestEven value
  · exact fun nearest => (isNearest_nearestEven value).unique nearest

/-! Whole numbers, sign and order -/

theorem isNearest_intCast (n : Int) : IsNearest n n := by
  rw [IsNearest, sub_self, abs_zero]
  norm_num

theorem IsNearest.neg {value : Rat} {n : Int} (nearest : IsNearest value n) :
    IsNearest (-value) (-n) := by
  have distance : |-value - ((-n : Int) : Rat)| = |value - n| := by
    rw [Int.cast_neg, neg_sub_neg, abs_sub_comm]
  rw [IsNearest, distance]
  refine ⟨nearest.1, ?_⟩
  intro tie
  have even := nearest.2 tie
  omega

theorem nearestEven_neg (value : Rat) : nearestEven (-value) = -nearestEven value :=
  nearestEven_eq_iff.mpr (isNearest_nearestEven value).neg

theorem nearestEven_intCast (n : Int) : nearestEven n = n :=
  nearestEven_eq_iff.mpr (isNearest_intCast n)

theorem nearestEven_mono {value other : Rat} (ordered : value ≤ other) :
    nearestEven value ≤ nearestEven other :=
  (isNearest_nearestEven value).mono (isNearest_nearestEven other) ordered

theorem nearestEven_nonneg {value : Rat} (nonneg : 0 ≤ value) : 0 ≤ nearestEven value := by
  have ordered := nearestEven_mono nonneg
  rwa [← Int.cast_zero, nearestEven_intCast] at ordered

/-! Bounds -/

/-- What lies halfway above an even number goes down to it. -/
theorem IsNearest.le_even_iff {value : Rat} {n bound : Int} (nearest : IsNearest value n)
    (even : bound % 2 = 0) : n ≤ bound ↔ value ≤ bound + 1 / 2 := by
  obtain ⟨lower, upper⟩ := abs_le.mp nearest.1
  constructor
  · intro within
    have bounded : (n : Rat) ≤ bound := by exact_mod_cast within
    linarith
  · intro within
    by_contra beyond
    have next : (bound : Rat) + 1 ≤ n := by exact_mod_cast not_le.mp beyond
    have tie : value - n = -(1 / 2) := by linarith
    have evenToo := nearest.2 (by rw [tie]; norm_num)
    have same : (n : Rat) = bound + 1 := by linarith
    have succ : n = bound + 1 := by exact_mod_cast same
    omega

/-- What lies halfway above an odd number goes up from it. -/
theorem IsNearest.le_odd_iff {value : Rat} {n bound : Int} (nearest : IsNearest value n)
    (odd : bound % 2 = 1) : n ≤ bound ↔ value < bound + 1 / 2 := by
  obtain ⟨lower, upper⟩ := abs_le.mp nearest.1
  constructor
  · intro within
    have bounded : (n : Rat) ≤ bound := by exact_mod_cast within
    refine lt_of_le_of_ne (by linarith) ?_
    intro tie
    have evenToo := nearest.2 (by rw [abs_of_nonneg] <;> linarith)
    have same : (n : Rat) = bound := by linarith
    have equal : n = bound := by exact_mod_cast same
    omega
  · intro within
    by_contra beyond
    have next : (bound : Rat) + 1 ≤ n := by exact_mod_cast not_le.mp beyond
    linarith

end Jianpu.Number
