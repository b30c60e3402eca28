import Jianpu.Pitch

/-! Pitches and their spelling. A pitch is its distance from the tonic and its
octave, and the degree of a distance in the scale sounds at that distance. The
steps of the staff are the pitches of the scale in their order. -/

set_option autoImplicit false

namespace Jianpu.Pitch

variable (key : Key) (pitch : Int)

theorem residue_lt : residue key pitch < 12 := by
  unfold residue
  rw [Int.fmod_eq_emod_of_nonneg _ (by decide)]
  omega

theorem pitch_eq : pitch = tonic key + residue key pitch + 12 * octaveOf key pitch := by
  unfold residue octaveOf
  rw [Int.fmod_eq_emod_of_nonneg _ (by decide), Int.fdiv_eq_ediv_of_nonneg _ (by decide)]
  omega

theorem semitones?_degreeAt? {distance degree : Nat} (found : degreeAt? distance = some degree) :
    semitones? degree = some (distance : Int) ∧ 1 ≤ degree ∧ degree ≤ 7 := by
  unfold degreeAt? at found
  split at found <;> cases found <;> decide

/-- The spelling of a pitch sounds at the pitch. -/
theorem ofDegree?_of_spell? {spelling : Spelling} (spelled : spell? key pitch = some spelling) :
    ofDegree? key spelling.degree 0 spelling.octave = some pitch ∧
      1 ≤ spelling.degree ∧ spelling.degree ≤ 7 := by
  obtain ⟨degree, found, rfl⟩ := Option.map_eq_some_iff.mp spelled
  obtain ⟨above, bounds⟩ := semitones?_degreeAt? found
  refine ⟨?_, bounds⟩
  rw [ofDegree?, above, Option.map_some, Option.some.injEq]
  have parts := pitch_eq key pitch
  dsimp only
  omega

/-! Pitches of the scale -/

/-- A pitch at which a degree of the key sounds without an accidental. -/
def IsDiatonic : Prop :=
  ∃ degree octave : Int, 1 ≤ degree ∧ degree ≤ 7 ∧ ofDegree? key degree 0 octave = some pitch

theorem degree_cases {degree : Int} (bounds : 1 ≤ degree ∧ degree ≤ 7) :
    degree = 1 ∨ degree = 2 ∨ degree = 3 ∨ degree = 4 ∨ degree = 5 ∨ degree = 6 ∨ degree = 7 := by
  omega

theorem degreeAt?_semitones? {degree distance : Int} (bounds : 1 ≤ degree ∧ degree ≤ 7)
    (above : semitones? degree = some distance) :
    0 ≤ distance ∧ distance < 12 ∧ (degreeAt? distance.toNat).isSome = true := by
  rcases degree_cases bounds with rfl | rfl | rfl | rfl | rfl | rfl | rfl <;>
    cases above <;> decide

/-- The pitches of the scale are those that have a spelling. -/
theorem isDiatonic_iff : IsDiatonic key pitch ↔ (spell? key pitch).isSome = true := by
  constructor
  · rintro ⟨degree, octave, lower, upper, sounds⟩
    obtain ⟨distance, above, sum⟩ := Option.map_eq_some_iff.mp sounds
    obtain ⟨fromTonic, below, named⟩ := degreeAt?_semitones? ⟨lower, upper⟩ above
    have parts := pitch_eq key pitch
    have least := residue_lt key pitch
    have same : residue key pitch = distance.toNat := by omega
    rw [spell?, same, Option.isSome_map]
    exact named
  · intro spelled
    obtain ⟨spelling, found⟩ := Option.isSome_iff_exists.mp spelled
    obtain ⟨sounds, lower, upper⟩ := ofDegree?_of_spell? key pitch found
    exact ⟨spelling.degree, spelling.octave, by omega, by omega, sounds⟩

theorem isSome_captureToken?_iff :
    (captureToken? key pitch).isSome = true ↔ IsDiatonic key pitch := by
  rw [isDiatonic_iff, captureToken?, Option.isSome_map]

/-! Staff steps -/

/-- Semitones from the tonic to a staff step. Seven steps make twelve semitones, and every step
lies where an even division of them is rounded to. -/
def semitonesOfStep (step : Int) : Int :=
  (12 * step + 5) / 7

theorem semitonesOfStep_lt_iff (first second : Int) :
    semitonesOfStep first < semitonesOfStep second ↔ first < second := by
  unfold semitonesOfStep
  omega

theorem semitonesOfStep_octaves (octaves step : Int) :
    semitonesOfStep (octaves * 7 + step) = 12 * octaves + semitonesOfStep step := by
  unfold semitonesOfStep
  omega

theorem semitones?_eq {degree : Int} (bounds : 1 ≤ degree ∧ degree ≤ 7) :
    semitones? degree = some (semitonesOfStep (staffOffset degree)) := by
  rcases degree_cases bounds with rfl | rfl | rfl | rfl | rfl | rfl | rfl <;> rfl

/-- A degree sounds at its staff step, moved by its accidental. -/
theorem ofDegree?_eq {degree : Int} (bounds : 1 ≤ degree ∧ degree ≤ 7) (accidental octave : Int) :
    ofDegree? key degree accidental octave =
      some (tonic key + semitonesOfStep (octave * 7 + staffOffset degree) + accidental) := by
  rw [ofDegree?, semitones?_eq bounds, Option.map_some, semitonesOfStep_octaves,
    Option.some.injEq]
  omega

end Jianpu.Pitch
