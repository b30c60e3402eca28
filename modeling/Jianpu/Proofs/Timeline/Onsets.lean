import Jianpu.Proofs.Notation.Grammar
import Jianpu.Proofs.Number.Exact
import Jianpu.Timeline
import Mathlib.Algebra.BigOperators.Group.List.Basic
import Mathlib.Algebra.Order.Field.Rat
import Mathlib.Tactic.Linarith
import Mathlib.Tactic.Positivity
import Mathlib.Tactic.Ring

/-! The timeline in exact rationals. The clock of a melody is a running sum and the
clock of a document a sum of totals; both say how many beats pass before a note,
so every tone is told by its note and that number. -/

set_option autoImplicit false

namespace Jianpu

open Number (Scalar)
open Notation (Event Melody Note Section)

namespace Notation

deriving instance DecidableEq for Note

/-! Lengths -/

theorem halved_rat (n : Nat) : halved n = (1 / 2 : Rat) ^ n := by
  induction n with
  | zero => norm_num [halved, Scalar.decimal]
  | succ n ih =>
      rw [halved, ih, pow_succ']
      norm_num [Scalar.decimal]

theorem durationOf_pos (modifiers : List Char) : (0 : Rat) < durationOf modifiers := by
  have base : (0 : Rat) <
      if modifiers.contains '=' then Scalar.decimal 25 2 else halved (modifiers.count '_') := by
    split
    · norm_num [Scalar.decimal]
    · rw [halved_rat]
      positivity
  have dashes : (0 : Rat) ≤ Scalar.ofInt (modifiers.count '-' : Int) :=
    Int.cast_nonneg (Int.natCast_nonneg _)
  have dot : (0 : Rat) < Scalar.decimal 15 1 := by
    norm_num [Scalar.decimal]
  have extended := add_pos_of_pos_of_nonneg base dashes
  unfold durationOf
  dsimp only
  split
  · exact mul_pos extended dot
  · exact extended

/-- The length of notes in beats. -/
def beatsOf (notes : List (Note Rat)) : Rat :=
  (notes.map (·.duration)).sum

/-- The notes of the melodies among sections. -/
def melodyNotes (sections : List (Section Rat)) : List (Note Rat) :=
  (sections.filterMap Section.melody?).flatMap Melody.notes

/-- Melodies whose total is the length of their notes. -/
def Summed (sections : List (Section Rat)) : Prop :=
  ∀ melody ∈ sections.filterMap Section.melody?, melody.total = beatsOf melody.notes

/-- The meanings of blocks, each in a key of its own. -/
def meanings {α : Type} [Scalar α] (blocks : List (Key × Block)) : List (Section α) :=
  blocks.map fun (key, block) => block.meaning key

theorem sections_eq_meanings {α : Type} [Scalar α] (document : Document) :
    document.sections (α := α) =
      meanings (document.blocks.map fun block => (document.key, block)) := by
  rw [meanings, List.map_map]
  rfl

theorem melody_of_meanings {blocks : List (Key × Block)} {melody : Melody Rat}
    (read : melody ∈ (meanings blocks).filterMap Section.melody?) :
    ∃ key block, (key, block) ∈ blocks ∧ melody = Melody.ofText key block.content := by
  obtain ⟨entry, member, sung⟩ := List.mem_filterMap.mp read
  obtain ⟨⟨key, block⟩, among, rfl⟩ := List.mem_map.mp member
  refine ⟨key, block, among, ?_⟩
  dsimp only [Block.meaning] at sung
  split at sung
  · cases sung
  all_goals exact (Option.some.inj sung).symm

theorem summed_meanings (blocks : List (Key × Block)) : Summed (meanings blocks) := by
  intro melody read
  obtain ⟨key, block, -, rfl⟩ := melody_of_meanings read
  exact Number.sum_rat _

/-- A note comes from a digit and its modifiers, in the key of its block. -/
theorem noteOf_of_meanings {blocks : List (Key × Block)} {note : Note Rat}
    (sung : note ∈ melodyNotes (meanings blocks)) :
    ∃ key block, (key, block) ∈ blocks ∧ ∃ digit modifiers, note = noteOf key digit modifiers := by
  obtain ⟨melody, read, member⟩ := List.mem_flatMap.mp sung
  obtain ⟨key, block, among, rfl⟩ := melody_of_meanings read
  obtain ⟨digit, modifiers, -, made⟩ := exists_noteOf member
  exact ⟨key, block, among, digit, modifiers, made⟩

theorem duration_pos {blocks : List (Key × Block)} {note : Note Rat}
    (sung : note ∈ melodyNotes (meanings blocks)) : 0 < note.duration := by
  obtain ⟨key, block, -, digit, modifiers, rfl⟩ := noteOf_of_meanings sung
  exact durationOf_pos modifiers

theorem summed_sections (document : Document) : Summed (document.sections (α := Rat)) := by
  rw [sections_eq_meanings]
  exact summed_meanings _

/-- A note of a document comes from a digit and its modifiers. -/
theorem noteOf_of_melodyNotes {document : Document} {note : Note Rat}
    (sung : note ∈ melodyNotes document.sections) :
    ∃ digit modifiers, note = noteOf document.key digit modifiers := by
  rw [sections_eq_meanings] at sung
  obtain ⟨key, block, among, made⟩ := noteOf_of_meanings sung
  obtain ⟨_, -, same⟩ := List.mem_map.mp among
  cases same
  exact made

end Notation

namespace Timeline

open Notation (Summed beatsOf melodyNotes)

/-! Clocks -/

/-- Notes with the beats that pass before each of them. -/
def onsets : (elapsed : Rat) → List (Note Rat) → List (Rat × Note Rat)
  | _, [] => []
  | elapsed, note :: rest => (elapsed, note) :: onsets (elapsed + note.duration) rest

theorem onsets_append (elapsed : Rat) (first second : List (Note Rat)) :
    onsets elapsed (first ++ second) =
      onsets elapsed first ++ onsets (elapsed + beatsOf first) second := by
  induction first generalizing elapsed with
  | nil => simp [onsets, beatsOf]
  | cons note first ih =>
      simp only [List.cons_append, onsets, ih, beatsOf, List.map_cons, List.sum_cons, add_assoc]

theorem getElem?_onsets (elapsed : Rat) (notes : List (Note Rat)) (place : Nat) :
    (onsets elapsed notes)[place]? =
      notes[place]?.map fun note => (elapsed + beatsOf (notes.take place), note) := by
  induction notes generalizing elapsed place with
  | nil => rfl
  | cons note notes ih =>
      cases place with
      | zero => simp [onsets, beatsOf]
      | succ place =>
          simp only [onsets, List.getElem?_cons_succ, ih, List.take_succ_cons, beatsOf,
            List.map_cons, List.sum_cons, add_assoc]

theorem length_onsets (elapsed : Rat) (notes : List (Note Rat)) :
    (onsets elapsed notes).length = notes.length := by
  induction notes generalizing elapsed with
  | nil => rfl
  | cons note notes ih => rw [onsets, List.length_cons, ih, List.length_cons]

theorem mem_onsets {elapsed : Rat} {notes : List (Note Rat)} {onset : Rat × Note Rat}
    (nonnegative : ∀ note ∈ notes, 0 ≤ note.duration) (member : onset ∈ onsets elapsed notes) :
    elapsed ≤ onset.1 ∧ onset.2 ∈ notes := by
  induction notes generalizing elapsed with
  | nil => cases member
  | cons note notes ih =>
      rcases List.mem_cons.mp member with rfl | later
      · exact ⟨le_rfl, List.mem_cons_self⟩
      · obtain ⟨onward, inside⟩ :=
          ih (fun other among => nonnegative other (List.mem_cons_of_mem note among)) later
        have moved := nonnegative note List.mem_cons_self
        exact ⟨by linarith, List.mem_cons_of_mem note inside⟩

/-- Every note is over by the time a later one begins. -/
theorem pairwise_onsets {notes : List (Note Rat)}
    (nonnegative : ∀ note ∈ notes, 0 ≤ note.duration) (elapsed : Rat) :
    (onsets elapsed notes).Pairwise fun earlier later =>
      earlier.1 + earlier.2.duration ≤ later.1 := by
  induction notes generalizing elapsed with
  | nil => exact .nil
  | cons note notes ih =>
      have rest : ∀ other ∈ notes, 0 ≤ other.duration :=
        fun other among => nonnegative other (List.mem_cons_of_mem note among)
      exact .cons (fun later among => (mem_onsets rest among).1) (ih rest _)

/-! Tones -/

/-- The tone of a note, at a number of seconds for every beat. -/
def toneAt (beat : Rat) (onset : Rat × Note Rat) : Tone Rat :=
  { pitch := onset.2.pitch
    start := onset.1 * beat
    duration := onset.2.duration * beat * (9 / 10) }

theorem tonesFrom_eq {beat origin offset elapsed : Rat} (here : origin + offset = elapsed * beat)
    (notes : List (Note Rat)) :
    tonesFrom beat origin offset notes = (onsets elapsed notes).map (toneAt beat) := by
  induction notes generalizing offset elapsed with
  | nil => rfl
  | cons note notes ih =>
      have next : origin + (offset + note.duration * beat) = (elapsed + note.duration) * beat := by
        rw [← add_assoc, here]
        ring
      have nine : (gate : Rat) = 9 / 10 := by
        norm_num [gate, Scalar.decimal]
      rw [tonesFrom, onsets, List.map_cons, toneAt, ← ih next, here, nine]

theorem tonesOf_eq (beat elapsed : Rat) {melodies : List (Melody Rat)}
    (summed : ∀ melody ∈ melodies, melody.total = beatsOf melody.notes) :
    tonesOf beat (elapsed * beat) melodies =
      (onsets elapsed (melodies.flatMap Melody.notes)).map (toneAt beat) := by
  induction melodies generalizing elapsed with
  | nil => rfl
  | cons melody melodies ih =>
      have start : elapsed * beat + Scalar.zero = elapsed * beat := by
        rw [Number.zero_rat, add_zero]
      have next : elapsed * beat + melody.total * beat =
          (elapsed + beatsOf melody.notes) * beat := by
        rw [summed melody List.mem_cons_self]
        ring
      rw [tonesOf, tonesFrom_eq start, next,
        ih _ fun other among => summed other (List.mem_cons_of_mem melody among),
        List.flatMap_cons, onsets_append, List.map_append]

theorem secondsPerBeat_rat {tempo : Rat} (positive : 0 < tempo) :
    secondsPerBeat tempo = .ok (60 / tempo) := by
  have nonzero : Number.Divisible.isZero tempo = false := by
    simpa [Number.Divisible.isZero] using positive.ne'
  have minute : (Scalar.decimal 60 0 : Rat) = 60 := by
    norm_num [Scalar.decimal]
  rw [secondsPerBeat, nonzero, minute]
  rfl

/-- The tones of a document are those of its notes, one after the other. -/
theorem schedule_eq {sections : List (Section Rat)} (summed : Summed sections) {tempo : Rat}
    (positive : 0 < tempo) :
    schedule sections tempo =
      .ok ((onsets 0 (melodyNotes sections)).map (toneAt (60 / tempo))) := by
  have start : (Scalar.zero : Rat) = 0 * (60 / tempo) := by
    rw [Number.zero_rat, zero_mul]
  rw [schedule, secondsPerBeat_rat positive]
  show Except.ok (tonesOf (60 / tempo) Scalar.zero _) = _
  rw [start, tonesOf_eq _ _ summed]
  rfl

end Timeline

end Jianpu
