import Jianpu.Notation.Melody
import Jianpu.Proofs.Notation.Cutting

/-! Modifiers put together. Octave marks and accidentals add up, and a length
looks at no modifier but its own. -/

set_option autoImplicit false

namespace Jianpu.Notation

open Number (Scalar)

/-- The modifiers that a length is made of. -/
def lengthModifiers : List Char := ['=', '_', '-', '.']

variable {front back : List Char}

theorem octaveOf_append : octaveOf (front ++ back) = octaveOf front + octaveOf back := by
  simp only [octaveOf, List.count_append]
  omega

/-- Sharps and flats add up as long as no natural cancels them. -/
theorem accidentalOf_append (noNatural : 'n' ∉ front ++ back) :
    accidentalOf (front ++ back) = accidentalOf front + accidentalOf back := by
  obtain ⟨noFront, noBack⟩ := not_or.mp (List.mem_append.not.mp noNatural)
  simp only [accidentalOf, List.contains_eq_mem, noNatural, noFront, noBack, decide_false,
    Bool.false_eq_true, ↓reduceIte, List.count_append]
  omega

theorem durationOf_append {α : Type} [Scalar α] (plain : ∀ c ∈ front, c ∉ lengthModifiers) :
    durationOf (α := α) (front ++ back) = durationOf back := by
  have absent : ∀ c ∈ lengthModifiers, c ∉ front := fun c length member => plain c member length
  have noEquals := absent '=' (by decide)
  have noUnderscore := absent '_' (by decide)
  have noHyphen := absent '-' (by decide)
  have noDot := absent '.' (by decide)
  simp only [durationOf, List.contains_eq_mem, List.mem_append, noEquals, noDot, false_or,
    List.count_append, List.count_eq_zero_of_not_mem noUnderscore,
    List.count_eq_zero_of_not_mem noHyphen, Nat.zero_add]

theorem lengthModifier_is_modifier : ∀ c ∈ lengthModifiers, c ∈ noteModifiers := by
  simp [lengthModifiers, noteModifiers]

section

variable {modifiers : List Char} (lengthOnly : ∀ c ∈ modifiers, c ∈ lengthModifiers)

include lengthOnly

theorem not_mem_of_lengthOnly {c : Char} (other : c ∉ lengthModifiers) : c ∉ modifiers :=
  fun member => other (lengthOnly c member)

theorem octaveOf_of_lengthOnly : octaveOf modifiers = 0 := by
  simp only [octaveOf,
    List.count_eq_zero_of_not_mem (not_mem_of_lengthOnly lengthOnly (by decide : '\'' ∉ _)),
    List.count_eq_zero_of_not_mem (not_mem_of_lengthOnly lengthOnly (by decide : '"' ∉ _)),
    List.count_eq_zero_of_not_mem (not_mem_of_lengthOnly lengthOnly (by decide : ',' ∉ _))]
  rfl

theorem accidentalOf_of_lengthOnly : accidentalOf modifiers = 0 := by
  simp only [accidentalOf, List.contains_eq_mem,
    not_mem_of_lengthOnly lengthOnly (by decide : 'n' ∉ _), decide_false, Bool.false_eq_true,
    ↓reduceIte,
    List.count_eq_zero_of_not_mem (not_mem_of_lengthOnly lengthOnly (by decide : '#' ∉ _)),
    List.count_eq_zero_of_not_mem (not_mem_of_lengthOnly lengthOnly (by decide : 'b' ∉ _))]
  rfl

end

/-! Octave marks -/

theorem mem_octaveMarks {octave : Int} : ∀ c ∈ Pitch.octaveMarks octave, c = '\'' ∨ c = ',' := by
  intro c member
  unfold Pitch.octaveMarks at member
  split at member
  · exact .inl (List.eq_of_mem_replicate member)
  · exact .inr (List.eq_of_mem_replicate member)

theorem octaveMark_is_modifier {octave : Int} :
    ∀ c ∈ Pitch.octaveMarks octave, c ∈ noteModifiers := by
  intro c member
  rcases mem_octaveMarks c member with rfl | rfl <;> decide

/-- The octave marks that are written are counted again when they are read. -/
theorem octaveOf_octaveMarks (octave : Int) : octaveOf (Pitch.octaveMarks octave) = octave := by
  unfold Pitch.octaveMarks
  split
  · rename_i up
    simp [octaveOf, List.count_replicate]
    omega
  · rename_i down
    simp [octaveOf, List.count_replicate]
    omega

theorem accidentalOf_octaveMarks (octave : Int) :
    accidentalOf (Pitch.octaveMarks octave) = 0 := by
  have absent : ∀ c : Char, c ≠ '\'' → c ≠ ',' → c ∉ Pitch.octaveMarks octave := by
    intro c notUp notDown member
    rcases mem_octaveMarks c member with same | same
    · exact notUp same
    · exact notDown same
  simp only [accidentalOf, List.contains_eq_mem, absent 'n' (by decide) (by decide),
    decide_false, Bool.false_eq_true, ↓reduceIte,
    List.count_eq_zero_of_not_mem (absent '#' (by decide) (by decide)),
    List.count_eq_zero_of_not_mem (absent 'b' (by decide) (by decide))]
  rfl

end Jianpu.Notation
