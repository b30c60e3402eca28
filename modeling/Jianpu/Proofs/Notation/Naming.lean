import Jianpu.Proofs.Notation.Grammar
import Jianpu.Proofs.Notation.Writing

/-! Labels read as the names of pitches: a letter and the signs after it. The catalog names every
degree by the pitch it sounds at, and a label shows no more than one accidental. -/

set_option autoImplicit false

namespace Jianpu.Notation

open Number (Scalar)

/-! Names of pitches -/

/-- Semitones of a letter above C. -/
def letterDistance? : Char → Option Int
  | 'C' => some 0
  | 'D' => some 2
  | 'E' => some 4
  | 'F' => some 5
  | 'G' => some 7
  | 'A' => some 9
  | 'B' => some 11
  | _ => none

/-- Semitones of any number of sharps and flats. -/
def signsShift? : List Char → Option Int
  | [] => some 0
  | '#' :: signs => (signsShift? signs).map (· + 1)
  | 'b' :: signs => (signsShift? signs).map (· - 1)
  | _ :: _ => none

/-- Semitones above C that a name says, in whatever octave: a letter, then sharps and flats. -/
def namedDistance? : List Char → Option Int
  | [] => none
  | letter :: signs => do return (← letterDistance? letter) + (← signsShift? signs)

theorem signsShift?_append {front back : List Char} {first second : Int}
    (before : signsShift? front = some first) (after : signsShift? back = some second) :
    signsShift? (front ++ back) = some (first + second) := by
  induction front using signsShift?.induct generalizing first with
  | case1 =>
      obtain rfl := Option.some.inj before
      rw [List.nil_append, after, Int.zero_add]
  | case2 signs ih =>
      obtain ⟨rest, found, rfl⟩ := Option.map_eq_some_iff.mp before
      rw [List.cons_append, signsShift?, ih found, Option.map_some, Int.add_right_comm]
  | case3 signs ih =>
      obtain ⟨rest, found, rfl⟩ := Option.map_eq_some_iff.mp before
      rw [List.cons_append, signsShift?, ih found, Option.map_some, Option.some.injEq]
      omega
  | case4 c signs notSharp notFlat =>
      simp [signsShift?] at before

/-- Further signs move what a name says. -/
theorem namedDistance?_append {name signs : List Char} {distance shift : Int}
    (named : namedDistance? name = some distance) (moved : signsShift? signs = some shift) :
    namedDistance? (name ++ signs) = some (distance + shift) := by
  cases name with
  | nil => cases named
  | cons letter rest =>
      obtain ⟨plain, isLetter, more⟩ := Option.bind_eq_some_iff.mp named
      obtain ⟨own, signed, sum⟩ := Option.bind_eq_some_iff.mp more
      obtain rfl := Option.some.inj sum
      have together := signsShift?_append signed moved
      simp only [List.cons_append, namedDistance?, isLetter, together, Option.bind_eq_bind,
        Option.bind_some, Option.pure_def, Option.some.injEq]
      omega

/-! Labels -/

/-- The part of an accidental that a label shows. -/
def shownShift (accidental : Int) : Int :=
  if accidental = 1 ∨ accidental = -1 then accidental else 0

theorem signsShift?_accidentalSign (accidental : Int) :
    signsShift? (accidentalSign accidental).toList = some (shownShift accidental) := by
  unfold accidentalSign shownShift
  split
  · rename_i sharp
    subst sharp
    rfl
  · split
    · rename_i flat
      subst flat
      rfl
    · simp_all [signsShift?]

/-- In a key of letters the name of a degree says where the degree sounds. -/
theorem label?_names_degree {key : Key} (listed : key ∈ Key.catalog)
    (lettered : key.numbersOnly = false) {digit : Char} (degree : digit ∈ degreeDigits) :
    ∃ name distance, key.label? (degreeOf digit) = some name ∧
      namedDistance? name.toList = some distance ∧
      distance % 12 =
        (key.tonicClass + Pitch.semitonesOfStep (Pitch.staffOffset (degreeOf digit))) % 12 := by
  have table : (Key.catalog.all fun key => key.numbersOnly || degreeDigits.all fun digit =>
      ((key.label? (degreeOf digit)).bind (namedDistance? ·.toList)).map (· % 12) =
        some ((key.tonicClass +
          Pitch.semitonesOfStep (Pitch.staffOffset (degreeOf digit))) % 12)) = true := by
    decide +kernel
  have row := List.all_eq_true.mp table key listed
  rw [lettered, Bool.false_or] at row
  have cell := of_decide_eq_true (List.all_eq_true.mp row digit degree)
  obtain ⟨distance, read, sounds⟩ := Option.map_eq_some_iff.mp cell
  obtain ⟨name, found, named⟩ := Option.bind_eq_some_iff.mp read
  exact ⟨name, distance, found, named, sounds⟩

/-- What a label says is the pitch without the accidental, but for the part that is shown. -/
theorem label_distance {α : Type} [Scalar α] {key : Key} (listed : key ∈ Key.catalog)
    (lettered : key.numbersOnly = false) {text : String} {note : Note α}
    (member : note ∈ (Melody.ofText key text).notes) :
    ∃ distance, namedDistance? note.label.toList = some distance ∧
      distance % 12 = (note.pitch - note.accidental + shownShift note.accidental) % 12 := by
  obtain ⟨digit, modifiers, degree, rfl⟩ := exists_noteOf member
  obtain ⟨name, distance, found, named, sounds⟩ := label?_names_degree listed lettered degree
  have sign := signsShift?_accidentalSign (accidentalOf modifiers)
  refine ⟨distance + shownShift (accidentalOf modifiers), ?_, ?_⟩
  · simp only [noteOf, found, Option.getD_some, String.toList_append]
    exact namedDistance?_append named sign
  · have octaves := Pitch.semitonesOfStep_octaves (octaveOf modifiers)
      (Pitch.staffOffset (degreeOf digit))
    rw [pitch_noteOf_eq key degree modifiers]
    simp only [noteOf, octaves, Pitch.tonic, Pitch.ofClass]
    omega

/-- A label names the pitch class that its note sounds in, unless it leaves out an accidental of
more than one sign; then it names the class only when the signs make whole octaves. -/
theorem label_names_pitch {α : Type} [Scalar α] {key : Key} (listed : key ∈ Key.catalog)
    (lettered : key.numbersOnly = false) (text : String) :
    ∀ note ∈ (Melody.ofText (α := α) key text).notes,
      ∃ distance, namedDistance? note.label.toList = some distance ∧
        (distance % 12 = note.pitch % 12 ↔ note.accidental.natAbs ≤ 1 ∨ 12 ∣ note.accidental) := by
  intro note member
  obtain ⟨distance, named, sounds⟩ := label_distance listed lettered member
  refine ⟨distance, named, ?_⟩
  rw [sounds, shownShift]
  split
  · rename_i single
    constructor
    · intro _
      left
      omega
    · intro _
      omega
  · rename_i other
    constructor
    · intro same
      right
      omega
    · intro unshown
      omega

/-- The sharpened seventh of F sharp is E with two sharps, which sounds as F sharp. -/
theorem label_names_pitch_of_sharpened_seventh :
    ∃ key ∈ Key.catalog, key.root = "F#" ∧
      ∃ note ∈ (Melody.ofText (α := Rat) key "7#'").notes, note.label = "E##" ∧
        ∃ distance, namedDistance? note.label.toList = some distance ∧
          distance % 12 = note.pitch % 12 := by
  let key := Key.atOrDefault 6
  have listed : key ∈ Key.catalog := by decide
  have cut : tokens "7#'".toList = [.note '7' ['#', '\'']] := by decide +kernel
  have member : noteOf key '7' ['#', '\''] ∈ (Melody.ofText (α := Rat) key "7#'").notes := by
    simp only [Melody.ofText, Melody.notes, eventsOf, cut]
    exact List.mem_cons_self
  obtain ⟨distance, named, right⟩ := label_names_pitch listed rfl "7#'" _ member
  have single := right.mpr (.inl (by decide))
  exact ⟨key, listed, rfl, _, member, by decide +kernel, distance, named, single⟩

/-- Under two sharps the first degree of C sounds as D, and its label says C. -/
theorem label_drops_second_sharp :
    ¬ ∀ note ∈ (Melody.ofText (α := Rat) Key.cMajor "1##").notes,
      ∃ distance, namedDistance? note.label.toList = some distance ∧
        distance % 12 = note.pitch % 12 := by
  intro named
  have cut : tokens "1##".toList = [.note '1' ['#', '#']] := by decide +kernel
  simp only [Melody.ofText, Melody.notes, eventsOf, cut] at named
  obtain ⟨distance, read, same⟩ := named _ List.mem_cons_self
  have plain :
      namedDistance? (noteOf (α := Rat) Key.cMajor '1' ['#', '#']).label.toList = some 0 := by
    decide +kernel
  obtain rfl := Option.some.inj (plain.symm.trans read)
  exact absurd same (by decide +kernel)

end Jianpu.Notation
