import Jianpu.Number.Scalar

set_option autoImplicit false

/-!
Equal temperament: note 69 sounds at 440 Hz and every octave doubles the frequency.
-/
namespace Jianpu.Pitch

open Number (Amount Fault Binary64.value? Binary64.nearest? nearestEven)

/-- A way to tell the binary logarithm of a number. It is the platform's, and rounded as that does it. -/
abbrev Logarithm := Float → Except Fault Float

/-- The binary logarithm. What is not positive has none. -/
def binaryLogarithm : Logarithm := fun ratio =>
  if ratio ≤ 0 then .error .undefined else .ok (Float.log2 ratio)

/-- The note nearest to a frequency in Hz. A frequency without a finite logarithm has no nearest note. -/
def ofFrequency (logarithm : Logarithm) (frequency : Float) : Except Fault Int := do
  let octaves ← logarithm (frequency / 440)
  Number.Divisible.nearest (69 + 12 * octaves)

/-- The note nearest to a frequency of either kind; a whole number may be too large. -/
def ofAmount (logarithm : Logarithm) (frequency : Amount) : Except Fault Int :=
  match frequency.toFloat? with
  | some frequency => ofFrequency logarithm frequency
  | none => .error .tooLarge

/-- The frequency of a note in Hz, when it is finite. -/
def frequency? (pitch : Int) : Option Float := do
  let octaves ← Binary64.nearest? (((pitch - 69 : Int) : Rat) / 12)
  let ratio := Float.pow 2 octaves
  if ratio.isInf then none else return 440 * ratio

/-- A frequency in micro-hertz, to the nearest whole number. -/
def microhertz? (frequency : Float) : Option Int :=
  (Binary64.value? (frequency * 1000000)).map nearestEven

end Jianpu.Pitch
