import Jianpu.Proofs.Notation.Joining
import Jianpu.Proofs.Notation.Writing
import Jianpu.Score.Import

/-! Spelling turned round. A pitch of the scale has one spelling, which is read back as the pitch
from the token that is written for it; the other pitches are each a semitone above one that has
a spelling. -/

set_option autoImplicit false

namespace Jianpu.Pitch

open Notation (Event Melody Note degreeDigits)
open Number (Scalar)

variable (key : Key)

/-! One spelling for a pitch -/

theorem ofDegree?_injective {degree octave other otherOctave pitch : Int}
    (bounds : 1 ≤ degree ∧ degree ≤ 7) (otherBounds : 1 ≤ other ∧ other ≤ 7)
    (sounds : ofDegree? key degree 0 octave = some pitch)
    (alsoSounds : ofDegree? key other 0 otherOctave = some pitch) :
    degree = other ∧ octave = otherOctave := by
  rw [ofDegree?_eq key bounds, Option.some.injEq] at sounds
  rw [ofDegree?_eq key otherBounds, Option.some.injEq] at alsoSounds
  have below := semitonesOfStep_lt_iff (octave * 7 + staffOffset degree)
    (otherOctave * 7 + staffOffset other)
  have above := semitonesOfStep_lt_iff (otherOctave * 7 + staffOffset other)
    (octave * 7 + staffOffset degree)
  unfold staffOffset at *
  omega

/-- The spelling of a pitch is the degree that sounds at it. -/
theorem spell?_eq_some_iff {pitch : Int} {spelling : Spelling} :
    spell? key pitch = some spelling ↔
      (1 ≤ spelling.degree ∧ spelling.degree ≤ 7) ∧
        ofDegree? key spelling.degree 0 spelling.octave = some pitch := by
  constructor
  · intro spelled
    obtain ⟨sounds, bounds⟩ := ofDegree?_of_spell? key pitch spelled
    exact ⟨bounds, sounds⟩
  · rintro ⟨bounds, sounds⟩
    have ofScale : IsDiatonic key pitch :=
      ⟨spelling.degree, spelling.octave, by omega, by omega, sounds⟩
    obtain ⟨found, spelled⟩ := Option.isSome_iff_exists.mp ((isDiatonic_iff key pitch).mp ofScale)
    obtain ⟨alsoSounds, least, most⟩ := ofDegree?_of_spell? key pitch spelled
    obtain ⟨degree, octave⟩ :=
      ofDegree?_injective key (by omega) (by omega) alsoSounds sounds
    obtain ⟨_, _⟩ := found
    obtain ⟨_, _⟩ := spelling
    simp_all

/-! Pitches between those of the scale -/

theorem below_residue {pitch : Int} (above : 0 < residue key pitch) :
    residue key (pitch - 1) = residue key pitch - 1 ∧
      octaveOf key (pitch - 1) = octaveOf key pitch := by
  have parts := pitch_eq key pitch
  have least := residue_lt key pitch
  have lowerParts := pitch_eq key (pitch - 1)
  have lowerLeast := residue_lt key (pitch - 1)
  omega

/-- A pitch without a spelling is a semitone above one that has a spelling in its octave, and is
imported as that degree with a sharp. -/
theorem spelled_below {pitch : Int} (chromatic : spell? key pitch = none) :
    residue key pitch ∈ [1, 3, 6, 8, 10] ∧
      ∃ degree, spell? key (pitch - 1) = some ⟨degree, octaveOf key pitch⟩ ∧
        Import.sharpened (residue key pitch) = toString degree ++ "#" := by
  have table : ∀ distance : Nat, distance < 12 → degreeAt? distance = none →
      distance ∈ [1, 3, 6, 8, 10] ∧ ((degreeAt? (distance - 1)).any fun degree =>
        Import.sharpened distance = toString degree ++ "#") = true := by
    decide
  obtain ⟨between, lower⟩ :=
    table _ (residue_lt key pitch) (Option.map_eq_none_iff.mp chromatic)
  have above : 0 < residue key pitch := by
    refine Nat.pos_of_ne_zero fun zero => ?_
    rw [zero] at between
    exact absurd between (by decide)
  obtain ⟨next, octave⟩ := below_residue key above
  refine ⟨between, ?_⟩
  cases named : degreeAt? (residue key pitch - 1) with
  | none => simp [named] at lower
  | some degree =>
      rw [named, Option.any_some, decide_eq_true_eq] at lower
      refine ⟨degree, ?_, lower⟩
      rw [spell?, next, named, octave, Option.map_some]

/-! Tokens -/

/-- The token of a degree is read as one note of the degree. -/
theorem events_token {α : Type} [Scalar α] {degree : Nat} (bounds : 1 ≤ degree ∧ degree ≤ 7)
    (octave : Int) :
    ∃ note : Note α,
      (Melody.ofText key (token (toString degree) octave "")).events = [.note note] ∧
        note.degree = degree ∧ note.accidental = 0 ∧ note.octave = octave ∧
        ofDegree? key degree 0 octave = some note.pitch := by
  obtain ⟨digit, shown, isDigit, same⟩ := Notation.exists_digit bounds
  have accidental := Notation.accidentalOf_octaveMarks octave
  have counted := Notation.octaveOf_octaveMarks octave
  have spelled : (token (toString degree) octave "").toList = digit :: octaveMarks octave := by
    simp only [token, String.toList_append, String.toList_ofList, shown, String.toList_empty,
      List.append_nil, List.singleton_append]
  refine ⟨Notation.noteOf key digit (octaveMarks octave), ?_, same, accidental, counted, ?_⟩
  · simp only [Melody.ofText, Notation.eventsOf, spelled,
      Notation.tokens_note isDigit Notation.octaveMark_is_modifier]
    rfl
  · have sounds := ofDegree?_eq key (Notation.degreeOf_bounds isDigit) 0 octave
    rw [← same]
    simp only [Notation.noteOf, accidental, counted, sounds, Option.getD_some]

theorem pitchToken_of_spelled {pitch : Int} {spelling : Spelling}
    (spelled : spell? key pitch = some spelling) :
    Import.pitchToken key pitch "" =
      match marksFault? spelling.octave with
      | some fault => .error fault
      | none => .ok (token (toString spelling.degree) spelling.octave "") := by
  obtain ⟨degree, -, rfl⟩ := Option.map_eq_some_iff.mp spelled
  cases written : marksFault? (octaveOf key pitch) with
  | none => simp only [Import.pitchToken, Import.headOf, spelled, written]
  | some fault => simp only [Import.pitchToken, written]

/-- Spelling a pitch and sounding a degree undo each other. Every pitch of the scale is one degree
in one octave; every other pitch is a semitone above a degree of its octave, which is how it is
imported. The token of a degree is read as one note of the degree at its pitch, unless its octave
marks are too many to be written. -/
theorem spelling_inverts_sounding {α : Type} [Scalar α] (pitch : Int) :
    (∀ degree octave : Int,
      (∃ spelling, spell? key pitch = some spelling ∧ spelling.degree = degree ∧
          spelling.octave = octave) ↔
        (1 ≤ degree ∧ degree ≤ 7) ∧ ofDegree? key degree 0 octave = some pitch) ∧
      (∀ degree octave other otherOctave : Int, 1 ≤ degree ∧ degree ≤ 7 → 1 ≤ other ∧ other ≤ 7 →
        ofDegree? key degree 0 octave = some pitch →
        ofDegree? key other 0 otherOctave = some pitch → degree = other ∧ octave = otherOctave) ∧
      (spell? key pitch = none → residue key pitch ∈ [1, 3, 6, 8, 10] ∧
        ∃ degree, spell? key (pitch - 1) = some ⟨degree, octaveOf key pitch⟩ ∧
          Import.sharpened (residue key pitch) = toString degree ++ "#") ∧
      ∀ (degree : Nat) (octave : Int), 1 ≤ degree ∧ degree ≤ 7 →
        ofDegree? key degree 0 octave = some pitch →
          match marksFault? octave with
          | some fault => Import.pitchToken key pitch "" = .error fault
          | none =>
            Import.pitchToken key pitch "" = .ok (token (toString degree) octave "") ∧
              ∃ note : Note α,
                (Melody.ofText key (token (toString degree) octave "")).events = [.note note] ∧
                  note.degree = degree ∧ note.accidental = 0 ∧ note.octave = octave ∧
                  note.pitch = pitch := by
  refine ⟨?_, ?_, spelled_below key, ?_⟩
  · intro degree octave
    constructor
    · rintro ⟨spelling, spelled, rfl, rfl⟩
      obtain ⟨bounds, sounds⟩ := (spell?_eq_some_iff key).mp spelled
      exact ⟨by omega, sounds⟩
    · rintro ⟨⟨least, most⟩, sounds⟩
      have counted : (degree.toNat : Int) = degree := Int.toNat_of_nonneg (by omega)
      refine ⟨⟨degree.toNat, octave⟩, (spell?_eq_some_iff key).mpr ⟨?_, ?_⟩, counted, rfl⟩
      · dsimp only
        omega
      · rw [counted]
        exact sounds
  · intro degree octave other otherOctave bounds otherBounds sounds alsoSounds
    exact ofDegree?_injective key bounds otherBounds sounds alsoSounds
  · intro degree octave bounds sounds
    have spelled : spell? key pitch = some ⟨degree, octave⟩ :=
      (spell?_eq_some_iff key).mpr ⟨bounds, sounds⟩
    have written := pitchToken_of_spelled key spelled
    dsimp only at written
    split
    · rename_i fault unwritable
      rw [unwritable] at written
      exact written
    · rename_i writable
      rw [writable] at written
      obtain ⟨note, events, same, plain, marked, alsoSounds⟩ :=
        events_token (α := α) key bounds octave
      have pitched : note.pitch = pitch := Option.some.inj (alsoSounds.symm.trans sounds)
      exact ⟨written, note, events, same, plain, marked, pitched⟩

/-- In G the pitch under the tonic is the seventh of the octave below, and the pitch over it has no
degree. -/
theorem spelling_inverts_sounding_around_tonic :
    let key := Key.atOrDefault 1
    Import.pitchToken key 66 "" = .ok "7," ∧
      (∃ note : Note Rat, (Melody.ofText key "7,").events = [.note note] ∧ note.degree = 7 ∧
        note.octave = -1 ∧ note.pitch = 66) ∧
      spell? key 68 = none ∧ ∃ degree, spell? key 67 = some ⟨degree, 0⟩ := by
  intro key
  have below := spelling_inverts_sounding (α := Rat) key 66
  have above := spelling_inverts_sounding (α := Rat) key 68
  obtain ⟨written, note, events, degree, -, octave, pitch⟩ :=
    below.2.2.2 7 (-1) (by decide) (by decide)
  have chromatic : spell? key 68 = none := by decide
  obtain ⟨-, lower, spelled, -⟩ := above.2.2.1 chromatic
  exact ⟨written, ⟨note, events, degree, octave, pitch⟩, chromatic, lower, spelled⟩

/-- A degree whose octave marks cannot be counted has no token. -/
theorem token_of_degree_overflows :
    ofDegree? Key.cMajor 1 0 (2 ^ 64) = some (60 + 12 * 2 ^ 64) ∧
      ¬ ∃ text, Import.pitchToken Key.cMajor (60 + 12 * 2 ^ 64) "" = .ok text := by
  have fault : marksFault? (octaveOf Key.cMajor (60 + 12 * 2 ^ 64)) = some .tooLarge := by
    decide
  refine ⟨by decide, ?_⟩
  rintro ⟨text, written⟩
  simp only [Import.pitchToken, fault] at written
  cases written

end Jianpu.Pitch
