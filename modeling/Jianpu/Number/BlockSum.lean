set_option autoImplicit false

/-!
Sums and averages of binary64 lists in the order that keeps rounding errors small: a long list is cut
in two at a multiple of eight, a short one is summed in eight lanes.
-/
namespace Jianpu.Number.BlockSum

/-- The entries whose place leaves a remainder of `lane` by eight. -/
def inLane (values : List Float) (lane : Nat) : List Float :=
  values.zipIdx.filterMap fun (value, place) => if place % 8 = lane then some value else none

/-- The sum from the left. -/
def running (values : List Float) : Float :=
  values.foldl (· + ·) 0

/-- The sum of a list of at most 128 entries: eight lanes are summed, joined in pairs, and the entries
after the last full row are added. -/
def ofShort (values : List Float) : Float :=
  let full := values.length - values.length % 8
  if full = 0 then running values
  else
    let lane := fun place => running (inLane (values.take full) place)
    let joined := ((lane 0 + lane 1) + (lane 2 + lane 3)) + ((lane 4 + lane 5) + (lane 6 + lane 7))
    (values.drop full).foldl (· + ·) joined

/-- The sum of a list of any length. -/
def sum (values : List Float) : Float :=
  if values.length ≤ 128 then ofShort values
  else
    let half := values.length / 2 - values.length / 2 % 8
    sum (values.take half) + sum (values.drop half)
termination_by values.length
decreasing_by
  all_goals simp only [List.length_take, List.length_drop]
  all_goals omega

/-- The average of a list that is not empty. -/
def mean (values : List Float) : Float :=
  sum values / Float.ofNat values.length

/-- The middle entry by size, the average of the two middle ones in a list of even length. -/
def median (values : List Float) : Float :=
  let sorted := values.mergeSort fun left right => left ≤ right
  let middle := values.length / 2
  if values.length % 2 = 1 then sorted.getD middle 0
  else (sorted.getD (middle - 1) 0 + sorted.getD middle 0) / 2

end Jianpu.Number.BlockSum
