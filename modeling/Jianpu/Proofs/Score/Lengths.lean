import Jianpu.Proofs.Score.Tokens

/-! How the lengths of imported notes compare. A longer note is read back at least
as long, except against a note that rounds to no quarter beat at all: that one is
written as a whole beat, which is more than the shortest lengths that notation has. -/

set_option autoImplicit false

namespace Jianpu.Import

open Notation (Melody)
open Number (Fault IsNearest)

/-- The lengths of the notes that the token of a source note is read back as. -/
def readLengths (key : Key) (note : ScoreNote Rat) : Except Fault (List Rat) :=
  (noteToken key note).map fun token => (Melody.ofText key token).notes.map (·.duration)

/-! Lengths within a bound -/

theorem quarter_le_of_mem_lengths {length : Rat} (listed : length ∈ lengths) : 1 / 4 ≤ length :=
  (by decide +kernel : ∀ length ∈ lengths, 1 / 4 ≤ length) length listed

theorem beat_mem_lengths : (1 : Rat) ∈ lengths := by decide +kernel

/-- Only one beat in place of nothing is longer than what a larger bound allows. -/
theorem IsLongestWithin.le_iff {bound largerBound length other : Rat}
    (longest : IsLongestWithin bound length) (otherLongest : IsLongestWithin largerBound other)
    (ordered : bound ≤ largerBound) :
    length ≤ other ↔ ¬ (bound < 1 / 4 ∧ 1 / 4 ≤ largerBound ∧ largerBound < 1) := by
  rcases longest with ⟨listed, within, -⟩ | ⟨none, rfl⟩
  · have reached : 1 / 4 ≤ bound := (quarter_le_of_mem_lengths listed).trans within
    rcases otherLongest with ⟨-, -, longer⟩ | ⟨otherNone, -⟩
    · have grows : length ≤ other := longer length listed (within.trans ordered)
      exact ⟨fun _ below => absurd below.1 (not_lt.mpr reached), fun _ => grows⟩
    · exact absurd (ordered.trans_lt otherNone) (not_lt.mpr reached)
  · rcases otherLongest with ⟨otherListed, otherWithin, longer⟩ | ⟨otherNone, rfl⟩
    · have reached : 1 / 4 ≤ largerBound :=
        (quarter_le_of_mem_lengths otherListed).trans otherWithin
      constructor
      · rintro grows ⟨-, -, less⟩
        linarith
      · intro outside
        have beat : 1 ≤ largerBound := not_lt.mp fun less => outside ⟨none, reached, less⟩
        exact longer 1 beat_mem_lengths beat
    · exact ⟨fun _ below => absurd below.2.1 (not_le.mpr otherNone), fun _ => le_rfl⟩

theorem quarters_lt_quarter_iff {duration : Rat} {quarters : Int}
    (nearest : IsNearest (duration * 4) quarters) :
    (quarters : Rat) / 4 < 1 / 4 ↔ duration ≤ 1 / 8 := by
  have counted : (quarters : Rat) / 4 < 1 / 4 ↔ quarters ≤ 0 := by
    rw [← Int.lt_add_one_iff, ← @Int.cast_lt Rat]
    constructor <;> intro <;> push_cast at * <;> linarith
  rw [counted, nearest.le_even_iff (by decide)]
  constructor <;> intro <;> push_cast at * <;> linarith

theorem quarters_lt_beat_iff {duration : Rat} {quarters : Int}
    (nearest : IsNearest (duration * 4) quarters) :
    (quarters : Rat) / 4 < 1 ↔ duration < 7 / 8 := by
  have counted : (quarters : Rat) / 4 < 1 ↔ quarters ≤ 3 := by
    rw [← Int.lt_add_one_iff, ← @Int.cast_lt Rat]
    constructor <;> intro <;> push_cast at * <;> linarith
  rw [counted, nearest.le_odd_iff (by decide)]
  constructor <;> intro <;> push_cast at * <;> linarith

theorem SnapsTo.le_iff {duration longer length other : Rat} (snaps : SnapsTo duration length)
    (otherSnaps : SnapsTo longer other) (ordered : duration ≤ longer) :
    length ≤ other ↔ ¬ (duration ≤ 1 / 8 ∧ 1 / 8 < longer ∧ longer < 7 / 8) := by
  obtain ⟨quarters, nearest, longest⟩ := snaps
  obtain ⟨otherQuarters, otherNearest, otherLongest⟩ := otherSnaps
  have counted : (quarters : Rat) ≤ otherQuarters := by
    exact_mod_cast nearest.mono otherNearest (by linarith)
  have atLeastQuarter : 1 / 4 ≤ (otherQuarters : Rat) / 4 ↔ 1 / 8 < longer := by
    rw [← not_lt, quarters_lt_quarter_iff otherNearest, not_le]
  rw [longest.le_iff otherLongest (by linarith), quarters_lt_quarter_iff nearest,
    atLeastQuarter, quarters_lt_beat_iff otherNearest]

/-! What one note is read back as -/

theorem readLengths_unreadable (key : Key) {note : ScoreNote Rat} (unread : note.pitch = none) :
    readLengths key note = .ok [] := by
  have mute : '?' ∉ Notation.barGlyphs ∧ '?' ∉ Notation.degreeDigits ∧ '?' ≠ '[' := by decide
  have silent := tokens_silent mute
    (modifiers_lengthSuffix (Number.nearestEven (note.duration * 4)))
  have events : (Melody.ofText (α := Rat) key
      ("?" ++ lengthSuffix (Number.nearestEven (note.duration * 4)))).events = [] := by
    rw [Melody.ofText, Notation.eventsOf, String.toList_append, show "?".toList = ['?'] from rfl,
      List.singleton_append, silent]
    rfl
  have written : noteToken key note =
      .ok ("?" ++ lengthSuffix (Number.nearestEven (note.duration * 4))) := by
    simp [noteToken, suffixOf_eq, unread]
  rw [readLengths, written, Except.map, Melody.notes, events]
  rfl

section

variable (key : Key) {note : ScoreNote Rat} {pitch : Number.Whole} (read : note.pitch = some pitch)

include read

theorem readLengths_pitch
    (writable : Pitch.marksFault? (Pitch.octaveOf key pitch.value) = none) :
    ∃ length, readLengths key note = .ok [length] ∧ SnapsTo note.duration length := by
  obtain ⟨digit, modifiers, spelled, degree, marks, -, length⟩ :=
    token_read key pitch.value (mem_lengthSuffix (Number.nearestEven (note.duration * 4)))
  refine ⟨_, ?_, snapsTo_lengthSuffix note.duration⟩
  have written : noteToken key note = .ok (Pitch.token (headOf key pitch.value)
      (Pitch.octaveOf key pitch.value) (lengthSuffix (Number.nearestEven (note.duration * 4)))) := by
    simp [noteToken, suffixOf_eq, read, pitchToken, writable]
    rfl
  rw [readLengths, written, Except.map, Melody.notes, Melody.ofText, Notation.eventsOf, spelled,
    Notation.tokens_note degree marks, ← length]
  rfl

theorem readLengths_fault {fault : Fault}
    (unwritable : Pitch.marksFault? (Pitch.octaveOf key pitch.value) = some fault) :
    readLengths key note = .error fault := by
  have stopped : noteToken key note = .error fault := by
    simp [noteToken, suffixOf_eq, read, pitchToken, unwritable]
    rfl
  rw [readLengths, stopped]
  rfl

end

/-- Of two notes of one pitch the longer is read back at least as long, unless it
rounds to less than a beat and the other rounds to nothing, which is written as a
beat. -/
theorem longer_note_reads_longer (key : Key) (note longer : ScoreNote Rat)
    (samePitch : longer.pitch = note.pitch) (ordered : note.duration ≤ longer.duration) :
    match note.pitch with
    | none => readLengths key note = .ok [] ∧ readLengths key longer = .ok []
    | some pitch =>
      match Pitch.marksFault? (Pitch.octaveOf key pitch.value) with
      | some fault =>
        readLengths key note = .error fault ∧ readLengths key longer = .error fault
      | none => ∃ length other,
          readLengths key note = .ok [length] ∧ readLengths key longer = .ok [other] ∧
          (length ≤ other ↔
            ¬ (note.duration ≤ 1 / 8 ∧ 1 / 8 < longer.duration ∧ longer.duration < 7 / 8)) := by
  cases read : note.pitch with
  | none =>
      exact ⟨readLengths_unreadable key read,
        readLengths_unreadable key (samePitch.trans read)⟩
  | some pitch =>
      have otherRead := samePitch.trans read
      cases marks : Pitch.marksFault? (Pitch.octaveOf key pitch.value) with
      | some fault =>
          simp only [marks]
          exact ⟨readLengths_fault key read marks, readLengths_fault key otherRead marks⟩
      | none =>
          obtain ⟨length, lengthRead, snaps⟩ := readLengths_pitch key read marks
          obtain ⟨other, otherLengthRead, otherSnaps⟩ := readLengths_pitch key otherRead marks
          simp only [marks]
          exact ⟨length, other, lengthRead, otherLengthRead, snaps.le_iff otherSnaps ordered⟩

/-- A C sharp a little longer than a quarter beat. -/
def shortNote : ScoreNote Rat := ⟨some (.number 61), 0, 3 / 10, false⟩

theorem longer_note_reads_longer_at_dotted_half_beat :
    ∃ length other,
      readLengths (Key.atOrDefault 0) shortNote = .ok [length] ∧
      readLengths (Key.atOrDefault 0) { shortNote with duration := 4 / 5 } = .ok [other] ∧
      length ≤ other := by
  obtain ⟨length, other, read, otherRead, ordered⟩ :=
    longer_note_reads_longer (Key.atOrDefault 0) shortNote
      { shortNote with duration := 4 / 5 } rfl (by norm_num [shortNote])
  refine ⟨length, other, read, otherRead, ordered.mpr ?_⟩
  norm_num [shortNote]

/-- A note without length is read back as a beat, and one of a quarter beat as such. A note
whose octave marks are too many to be counted is not written at all. -/
theorem quarter_beat_reads_shorter_than_nothing :
    readLengths (Key.atOrDefault 0) { shortNote with duration := 0 } = .ok [1] ∧
      readLengths (Key.atOrDefault 0) { shortNote with duration := 1 / 4 } = .ok [1 / 4] ∧
      ¬ (1 : Rat) ≤ 1 / 4 ∧
      readLengths (Key.atOrDefault 0) { shortNote with pitch := some (.number (12 * 2 ^ 64)) } =
        .error .tooLarge := by
  decide +kernel

end Jianpu.Import
