import Jianpu.Proofs.Notation.Joining
import Jianpu.Proofs.Notation.Writing
import Jianpu.Proofs.Number.Rounding
import Jianpu.Score.Import
import Mathlib.Data.List.Forall2

/-! What an event of a score is written as, and how that is read. A note sounds
at its pitch in a length that notation has; a rest and a note whose pitch could
not be read leave a token that sounds nothing. -/

set_option autoImplicit false

namespace Jianpu.Import

open Notation (Event Token degreeDigits noteModifiers)
open Number (IsNearest isNearest_nearestEven)

/-- The lengths that notation has, in quarter notes. -/
def lengths : List Rat := [4, 3, 2, 3 / 2, 1, 3 / 4, 1 / 2, 1 / 4]

/-- The longest length within a bound, or one beat where every length is longer. -/
def IsLongestWithin (bound length : Rat) : Prop :=
  (length ∈ lengths ∧ length ≤ bound ∧ ∀ other ∈ lengths, other ≤ bound → other ≤ length) ∨
    bound < 1 / 4 ∧ length = 1

/-- The length that a duration snaps to: it is rounded to quarter beats, of two
to the even count, and then down to a length that notation has. -/
def SnapsTo (duration length : Rat) : Prop :=
  ∃ quarters : Int, IsNearest (duration * 4) quarters ∧ IsLongestWithin (quarters / 4) length

/-- True of the events that are written: all but the further notes of a chord. -/
def isKept : ScoreEvent Rat → Bool
  | .rest _ => true
  | .note note => !note.chordMember

/-- The pitch and the duration of an event that sounds when it is written. -/
def sound? : ScoreEvent Rat → Option (Int × Rat)
  | .rest _ => none
  | .note note =>
    if note.chordMember then none
    else note.pitch.map fun pitch => (pitch.value, note.duration)

/-- The character that the token of an event starts with. -/
def Heads (head : Char) : ScoreEvent Rat → Prop
  | .rest _ => head = '0'
  | .note note => if note.pitch.isSome then head ∈ degreeDigits else head = '?'

/-- A token for an event: one character for what it is, and modifiers. -/
def IsTokenOf (event : ScoreEvent Rat) (token : String) : Prop :=
  ∃ head modifiers, token.toList = head :: modifiers ∧ Heads head event ∧
    ∀ c ∈ modifiers, c ∈ noteModifiers

/-- An event of a melody text that sounds at a pitch, in the length that a
duration snaps to. -/
def Sounds (sound : Int × Rat) : Event Rat → Prop
  | .bar _ => False
  | .note note => note.pitch = sound.1 ∧ SnapsTo sound.2 note.duration

/-- A token for an event that is read as the sound of the event. -/
structure Renders (key : Key) (event : ScoreEvent Rat) (token : String) : Prop where
  isToken : IsTokenOf event token
  sounds : List.Forall₂ Sounds (sound? event).toList
    ((Notation.tokens token.toList).map (Notation.eventOf key))

/-! Lengths -/

/-- Modifiers that are read as a length are right from its own count of quarter beats up to that
of the next longer length. -/
theorem isLongestWithin_between {quarters own above : Int} {suffix : String} (length longer : Rat)
    (read : Notation.durationOf suffix.toList = length) (known : length ∈ lengths)
    (follows : ∀ other ∈ lengths, length < other → longer ≤ other) (counted : 4 * length = own)
    (longerCounted : 4 * longer = above) (fits : own ≤ quarters) (tooLong : ¬ above ≤ quarters) :
    IsLongestWithin (quarters / 4) (Notation.durationOf suffix.toList) := by
  have lower : (own : Rat) ≤ quarters := by exact_mod_cast fits
  have upper : (quarters : Rat) < above := by exact_mod_cast lt_of_not_ge tooLong
  rw [read]
  refine .inl ⟨known, by linarith, ?_⟩
  intro other member within
  by_contra further
  have far := follows other member (lt_of_not_ge further)
  linarith

theorem isLongestWithin_four {quarters : Int} (fits : 16 ≤ quarters) :
    IsLongestWithin (quarters / 4) 4 := by
  have bound : (16 : Rat) ≤ quarters := by exact_mod_cast fits
  have longest : ∀ other ∈ lengths, other ≤ 4 := by decide +kernel
  exact .inl ⟨by decide +kernel, by linarith, fun other member _ => longest other member⟩

/-- The modifiers that are written for a length are read as the length. -/
theorem durationOf_lengthSuffix (quarters : Int) :
    IsLongestWithin (quarters / 4) (Notation.durationOf (lengthSuffix quarters).toList) := by
  unfold lengthSuffix
  split
  · rename_i fits
    rw [show Notation.durationOf "---".toList = (4 : Rat) by decide +kernel]
    exact isLongestWithin_four fits
  split
  · rename_i tooLong fits
    exact isLongestWithin_between 3 4 (by decide +kernel) (by decide +kernel)
      (by decide +kernel) (by norm_num) (by norm_num) fits tooLong
  split
  · rename_i tooLong fits
    exact isLongestWithin_between 2 3 (by decide +kernel) (by decide +kernel)
      (by decide +kernel) (by norm_num) (by norm_num) fits tooLong
  split
  · rename_i tooLong fits
    exact isLongestWithin_between (3 / 2) 2 (by decide +kernel) (by decide +kernel)
      (by decide +kernel) (by norm_num) (by norm_num) fits tooLong
  split
  · rename_i tooLong fits
    exact isLongestWithin_between 1 (3 / 2) (by decide +kernel) (by decide +kernel)
      (by decide +kernel) (by norm_num) (by norm_num) fits tooLong
  split
  · rename_i tooLong fits
    exact isLongestWithin_between (3 / 4) 1 (by decide +kernel) (by decide +kernel)
      (by decide +kernel) (by norm_num) (by norm_num) fits tooLong
  split
  · rename_i tooLong fits
    exact isLongestWithin_between (1 / 2) (3 / 4) (by decide +kernel) (by decide +kernel)
      (by decide +kernel) (by norm_num) (by norm_num) fits tooLong
  split
  · rename_i tooLong fits
    exact isLongestWithin_between (1 / 4) (1 / 2) (by decide +kernel) (by decide +kernel)
      (by decide +kernel) (by norm_num) (by norm_num) fits tooLong
  · rename_i tooLong
    have upper : (quarters : Rat) < 1 := by exact_mod_cast lt_of_not_ge tooLong
    rw [show Notation.durationOf "".toList = (1 : Rat) by decide +kernel]
    exact .inr ⟨by linarith, rfl⟩

theorem mem_lengthSuffix (quarters : Int) :
    ∀ c ∈ (lengthSuffix quarters).toList, c ∈ Notation.lengthModifiers := by
  unfold lengthSuffix
  repeat' split
  all_goals simp [Notation.lengthModifiers]

/-! Rests and unreadable pitches -/

/-- A character that heads no note, with modifiers, is read as nothing. -/
theorem tokens_silent {head : Char} {modifiers : List Char}
    (silent : head ∉ Notation.barGlyphs ∧ head ∉ degreeDigits ∧ head ≠ '[')
    (marks : ∀ c ∈ modifiers, c ∈ noteModifiers) : Notation.tokens (head :: modifiers) = [] := by
  have plain : ∀ c ∈ noteModifiers, c ∉ Notation.barGlyphs ∧ c ∉ degreeDigits ∧ c ≠ '[' := by
    simp [noteModifiers, Notation.barGlyphs, degreeDigits]
  refine Notation.tokens_plain ?_
  intro c member
  rcases List.mem_cons.mp member with rfl | mark
  · exact silent
  · exact plain c (marks c mark)

/-! Pitches -/

/-- The head of a pitch's token is a degree, with a sharp when the degree is one
semitone below the pitch. -/
theorem headOf_spelled (key : Key) (pitch : Int) :
    ∃ digit sharps, (headOf key pitch).toList = digit :: sharps ∧ digit ∈ degreeDigits ∧
      (sharps = [] ∨ sharps = ['#']) ∧
      Pitch.semitones? (Notation.degreeOf digit) =
        some (Pitch.residue key pitch - sharps.length : Int) := by
  -- The table is searched for each of the twelve distances.
  have table : ∀ distance : Nat, distance < 12 →
      (degreeDigits.any fun digit => [[], ['#']].any fun sharps =>
        (match Pitch.degreeAt? distance with
          | some degree => toString degree
          | none => sharpened distance).toList = digit :: sharps ∧
        Pitch.semitones? (Notation.degreeOf digit) =
          some (distance - sharps.length : Int)) = true := by
    decide
  obtain ⟨digit, degree, inner⟩ :=
    List.any_eq_true.mp (table (Pitch.residue key pitch) (Pitch.residue_lt key pitch))
  obtain ⟨sharps, few, row⟩ := List.any_eq_true.mp inner
  obtain ⟨spelled, above⟩ := of_decide_eq_true row
  refine ⟨digit, sharps, ?_, degree, by simpa using few, above⟩
  rw [← spelled, headOf, Pitch.spell?]
  cases Pitch.degreeAt? (Pitch.residue key pitch) <;> rfl

/-- The token of a pitch is one note that sounds at the pitch. -/
theorem token_read (key : Key) (pitch : Int) {suffix : String}
    (lengthOnly : ∀ c ∈ suffix.toList, c ∈ Notation.lengthModifiers) :
    ∃ digit modifiers,
      (Pitch.token (headOf key pitch) (Pitch.octaveOf key pitch) suffix).toList =
        digit :: modifiers ∧
      digit ∈ degreeDigits ∧ (∀ c ∈ modifiers, c ∈ noteModifiers) ∧
      (Notation.noteOf (α := Rat) key digit modifiers).pitch = pitch ∧
      (Notation.noteOf (α := Rat) key digit modifiers).duration =
        Notation.durationOf suffix.toList := by
  obtain ⟨digit, sharps, spelled, degree, few, above⟩ := headOf_spelled key pitch
  obtain ⟨marks, sounding, length⟩ := Notation.noteOf_spelled (α := Rat) few above lengthOnly
  refine ⟨digit, sharps ++ (Pitch.octaveMarks (Pitch.octaveOf key pitch) ++ suffix.toList), ?_,
    degree, marks, sounding, length⟩
  simp only [Pitch.token, String.toList_append, String.toList_ofList, spelled,
    List.cons_append, List.append_assoc]

/-! Events -/

theorem suffixOf_eq (duration : Rat) :
    suffixOf duration = .ok (lengthSuffix (Number.nearestEven (duration * 4))) := rfl

theorem snapsTo_lengthSuffix (duration : Rat) :
    SnapsTo duration
      (Notation.durationOf (lengthSuffix (Number.nearestEven (duration * 4))).toList) :=
  ⟨_, isNearest_nearestEven _, durationOf_lengthSuffix _⟩

theorem modifiers_lengthSuffix (quarters : Int) :
    ∀ c ∈ (lengthSuffix quarters).toList, c ∈ noteModifiers :=
  fun c member => Notation.lengthModifier_is_modifier c (mem_lengthSuffix quarters c member)

theorem renders_silent (key : Key) {event : ScoreEvent Rat} (mark : String) {head : Char}
    (spelled : mark.toList = [head])
    (silent : head ∉ Notation.barGlyphs ∧ head ∉ degreeDigits ∧ head ≠ '[')
    (heads : Heads head event) (noSound : sound? event = none) (quarters : Int) :
    Renders key event (mark ++ lengthSuffix quarters) := by
  have marks := modifiers_lengthSuffix quarters
  have chars : (mark ++ lengthSuffix quarters).toList =
      head :: (lengthSuffix quarters).toList := by
    rw [String.toList_append, spelled, List.singleton_append]
  refine ⟨⟨head, _, chars, heads, marks⟩, ?_⟩
  rw [chars, noSound, tokens_silent silent marks]
  exact .nil

theorem renders_pitch (key : Key) {note : ScoreNote Rat} {pitch : Number.Whole}
    (readable : note.pitch = some pitch) (kept : note.chordMember = false) :
    Renders key (.note note)
      (Pitch.token (headOf key pitch.value) (Pitch.octaveOf key pitch.value)
        (lengthSuffix (Number.nearestEven (note.duration * 4)))) := by
  obtain ⟨digit, modifiers, spelled, degree, marks, sounding, length⟩ :=
    token_read key pitch.value (mem_lengthSuffix (Number.nearestEven (note.duration * 4)))
  have sound : sound? (.note note) = some (pitch.value, note.duration) := by
    simp [sound?, readable, kept]
  refine ⟨⟨digit, modifiers, spelled, ?_, marks⟩, ?_⟩
  · simpa [Heads, readable] using degree
  · rw [spelled, sound, Notation.tokens_note degree marks]
    refine .cons ⟨sounding, ?_⟩ .nil
    rw [length]
    exact snapsTo_lengthSuffix note.duration

/-- A kept event is written as a token that renders it, if its octave marks can be written. -/
theorem eventToken?_kept (key : Key) {event : ScoreEvent Rat} (kept : isKept event = true)
    (writable : ∀ sound ∈ sound? event,
      Pitch.marksFault? (Pitch.octaveOf key sound.1) = none) :
    ∃ token, eventToken? key event = .ok (some token) ∧ Renders key event token := by
  cases event with
  | rest duration =>
      have heads : Heads '0' (.rest duration) := rfl
      exact ⟨_, rfl, renders_silent key "0" rfl (by decide) heads rfl _⟩
  | note note =>
      have first : note.chordMember = false := by simpa [isKept] using kept
      cases read : note.pitch with
      | none =>
          have noSound : sound? (.note note) = none := by simp [sound?, read]
          have heads : Heads '?' (.note note) := by simp [Heads, read]
          refine ⟨_, ?_, renders_silent key "?" rfl (by decide) heads noSound
            (Number.nearestEven (note.duration * 4))⟩
          simp [eventToken?, first, noteToken, suffixOf_eq, read]
      | some pitch =>
          have clear := writable (pitch.value, note.duration) (by simp [sound?, first, read])
          refine ⟨_, ?_, renders_pitch key read first⟩
          simp [eventToken?, first, noteToken, suffixOf_eq, read, pitchToken, clear]
          rfl

theorem eventToken?_member (key : Key) {event : ScoreEvent Rat} (notKept : isKept event = false) :
    eventToken? key event = .ok none := by
  cases event with
  | rest => cases notKept
  | note note =>
      have member : note.chordMember = true := by simpa [isKept] using notKept
      simp [eventToken?, member]

theorem eventToken?_fault (key : Key) {event : ScoreEvent Rat} {sound : Int × Rat}
    {fault : Number.Fault} (sounding : sound? event = some sound)
    (unwritable : Pitch.marksFault? (Pitch.octaveOf key sound.1) = some fault) :
    eventToken? key event = .error fault := by
  cases event with
  | rest => cases sounding
  | note note =>
      simp only [sound?] at sounding
      split at sounding
      · cases sounding
      · rename_i first
        obtain ⟨pitch, read, rfl⟩ := Option.map_eq_some_iff.mp sounding
        simp [eventToken?, first, noteToken, suffixOf_eq, read, pitchToken, unwritable]
        rfl

end Jianpu.Import
