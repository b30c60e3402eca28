import Jianpu.Proofs.Notation.Modifiers
import Jianpu.Proofs.Pitch.Spelling

/-! Pitches as they are written. A degree with an accidental, octave marks and the
modifiers of a length is read back as the pitch, in the length. -/

set_option autoImplicit false

namespace Jianpu.Notation

open Number (Scalar)

variable {α : Type} [Scalar α]

/-! Degree digits -/

theorem degreeOf_bounds {digit : Char} (degree : digit ∈ degreeDigits) :
    1 ≤ (degreeOf digit : Int) ∧ (degreeOf digit : Int) ≤ 7 := by
  have table : (degreeDigits.all fun digit => 1 ≤ degreeOf digit ∧ degreeOf digit ≤ 7) = true := by
    decide
  have bounds := of_decide_eq_true (List.all_eq_true.mp table digit degree)
  omega

/-- A degree is written as one digit. -/
theorem exists_digit {degree : Nat} (bounds : 1 ≤ degree ∧ degree ≤ 7) :
    ∃ digit, (toString degree).toList = [digit] ∧ digit ∈ degreeDigits ∧
      degreeOf digit = degree := by
  have table : ∀ degree : Nat, degree < 8 → 1 ≤ degree →
      (degreeDigits.any fun digit =>
        (toString degree).toList = [digit] ∧ degreeOf digit = degree) = true := by
    decide
  obtain ⟨lower, upper⟩ := bounds
  obtain ⟨digit, isDigit, row⟩ :=
    List.any_eq_true.mp (table degree (Nat.lt_succ_of_le upper) lower)
  obtain ⟨shown, same⟩ := of_decide_eq_true row
  exact ⟨digit, shown, isDigit, same⟩

/-- A note sounds at its staff step, moved by its accidental. -/
theorem pitch_noteOf_eq (key : Key) {digit : Char} (degree : digit ∈ degreeDigits)
    (modifiers : List Char) :
    (noteOf (α := α) key digit modifiers).pitch =
      Pitch.tonic key +
        Pitch.semitonesOfStep (noteOf (α := α) key digit modifiers).staffStep +
        accidentalOf modifiers := by
  have sounds := Pitch.ofDegree?_eq key (degreeOf_bounds degree) (accidentalOf modifiers)
    (octaveOf modifiers)
  simp only [noteOf, sounds, Option.getD_some]

/-! Modifiers -/

/-- A sharp, octave marks and a length are read back each for itself. -/
theorem modifiers_read {sharps suffix : List Char} (few : sharps = [] ∨ sharps = ['#'])
    (octave : Int) (lengthOnly : ∀ c ∈ suffix, c ∈ lengthModifiers) :
    (∀ c ∈ sharps ++ (Pitch.octaveMarks octave ++ suffix), c ∈ noteModifiers) ∧
      accidentalOf (sharps ++ (Pitch.octaveMarks octave ++ suffix)) = sharps.length ∧
      octaveOf (sharps ++ (Pitch.octaveMarks octave ++ suffix)) = octave ∧
      durationOf (α := α) (sharps ++ (Pitch.octaveMarks octave ++ suffix)) =
        durationOf suffix := by
  have sharpsOnly : ∀ c ∈ sharps, c = '#' := by
    rcases few with rfl | rfl <;> simp
  have marksOnly : ∀ c ∈ Pitch.octaveMarks octave, c = '\'' ∨ c = ',' := mem_octaveMarks
  have noNatural : 'n' ∉ sharps ++ (Pitch.octaveMarks octave ++ suffix) := by
    simp only [List.mem_append, not_or]
    refine ⟨fun member => ?_, fun member => ?_, ?_⟩
    · exact absurd (sharpsOnly _ member) (by decide)
    · exact absurd (marksOnly _ member) (by decide)
    · exact not_mem_of_lengthOnly lengthOnly (by decide)
  have noNaturalRight : 'n' ∉ Pitch.octaveMarks octave ++ suffix :=
    fun member => noNatural (List.mem_append_right _ member)
  refine ⟨?_, ?_, ?_, ?_⟩
  · intro c member
    rcases List.mem_append.mp member with sharp | member
    · rw [sharpsOnly c sharp]
      decide
    rcases List.mem_append.mp member with mark | length
    · exact octaveMark_is_modifier c mark
    · exact lengthModifier_is_modifier c (lengthOnly c length)
  · have sharp : accidentalOf sharps = sharps.length := by
      rcases few with rfl | rfl <;> rfl
    rw [accidentalOf_append noNatural, accidentalOf_append noNaturalRight, sharp,
      accidentalOf_octaveMarks, accidentalOf_of_lengthOnly lengthOnly]
    omega
  · have noMarks : octaveOf sharps = 0 := by
      rcases few with rfl | rfl <;> rfl
    rw [octaveOf_append, octaveOf_append, noMarks,
      octaveOf_octaveMarks, octaveOf_of_lengthOnly lengthOnly]
    omega
  · rw [durationOf_append, durationOf_append]
    · intro c mark
      rcases marksOnly c mark with rfl | rfl <;> decide
    · intro c sharp
      rw [sharpsOnly c sharp]
      decide

/-- A degree below a pitch, with as many sharps as it is below, sounds at the pitch. -/
theorem noteOf_spelled {key : Key} {pitch : Int} {digit : Char} {sharps suffix : List Char}
    (few : sharps = [] ∨ sharps = ['#'])
    (above : Pitch.semitones? (degreeOf digit) =
      some (Pitch.residue key pitch - sharps.length : Int))
    (lengthOnly : ∀ c ∈ suffix, c ∈ lengthModifiers) :
    (∀ c ∈ sharps ++ (Pitch.octaveMarks (Pitch.octaveOf key pitch) ++ suffix),
        c ∈ noteModifiers) ∧
      (noteOf (α := α) key digit
        (sharps ++ (Pitch.octaveMarks (Pitch.octaveOf key pitch) ++ suffix))).pitch = pitch ∧
      (noteOf (α := α) key digit
        (sharps ++ (Pitch.octaveMarks (Pitch.octaveOf key pitch) ++ suffix))).duration =
          durationOf suffix := by
  obtain ⟨marks, accidental, octave, duration⟩ :=
    modifiers_read (α := α) few (Pitch.octaveOf key pitch) lengthOnly
  refine ⟨marks, ?_, duration⟩
  have parts := Pitch.pitch_eq key pitch
  simp only [noteOf, Pitch.ofDegree?, above, Option.map_some, Option.getD_some, accidental, octave]
  omega

/-- The token that a capture writes for a pitch: a degree digit and octave marks. -/
theorem captureToken?_spelled {key : Key} {pitch : Int} {token : String}
    (written : Pitch.captureToken? key pitch = some token) :
    ∃ digit, token.toList = digit :: Pitch.octaveMarks (Pitch.octaveOf key pitch) ∧
      digit ∈ degreeDigits ∧
      Pitch.semitones? (degreeOf digit) = some (Pitch.residue key pitch : Int) := by
  obtain ⟨spelling, spelled, rfl⟩ := Option.map_eq_some_iff.mp written
  obtain ⟨degree, found, rfl⟩ := Option.map_eq_some_iff.mp spelled
  obtain ⟨above, bounds⟩ := Pitch.semitones?_degreeAt? found
  obtain ⟨digit, shown, isDigit, same⟩ := exists_digit bounds
  refine ⟨digit, ?_, isDigit, by rw [same, above]⟩
  simp only [Pitch.Spelling.token, Pitch.token, String.toList_append, String.toList_ofList, shown,
    String.toList_empty, List.append_nil, List.singleton_append]

end Jianpu.Notation
