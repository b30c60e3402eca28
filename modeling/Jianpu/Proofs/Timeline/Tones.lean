import Jianpu.Proofs.Notation.Rekeying
import Mathlib.Data.List.Basic
import Jianpu.Timeline

/-! Tones in any numbers. Every note of the melodies is one tone, with its pitch and the
part of its length that sounds; when all notes move by one interval, as in another key, the tones
keep their times. -/

set_option autoImplicit false

namespace Jianpu

open Number (Divisible Scalar)
open Notation (Melody Note Section)

/-- A tone some semitones higher. -/
def Tone.transposed {α : Type} (shift : Int) (tone : Tone α) : Tone α :=
  { tone with pitch := tone.pitch + shift }

theorem Tone.transposed_zero {α : Type} : Tone.transposed (α := α) 0 = id := by
  funext tone
  rw [Tone.transposed, Int.add_zero]
  rfl

namespace Timeline

variable {α : Type} [Scalar α] (beat origin : α)

/-! One tone for each note -/

/-- What a note sounds like: its pitch, and how long it sounds. -/
def sound (beat : α) (note : Note α) : Int × α :=
  (note.pitch, note.duration * beat * gate)

theorem tonesFrom_sound (offset : α) (notes : List (Note α)) :
    (tonesFrom beat origin offset notes).map (fun tone => (tone.pitch, tone.duration)) =
      notes.map (sound beat) := by
  induction notes generalizing offset with
  | nil => rfl
  | cons note notes ih =>
      rw [tonesFrom, List.map_cons, ih, List.map_cons]
      rfl

theorem tonesOf_sound (melodies : List (Melody α)) :
    (tonesOf beat origin melodies).map (fun tone => (tone.pitch, tone.duration)) =
      (melodies.flatMap Melody.notes).map (sound beat) := by
  induction melodies generalizing origin with
  | nil => rfl
  | cons melody melodies ih =>
      rw [tonesOf, List.map_append, tonesFrom_sound, ih, List.flatMap_cons, List.map_append]

/-- The tones of a schedule are those of the notes, in order, and only a tempo without a beat
keeps there from being any. -/
theorem schedule_sound [Divisible α] (sections : List (Section α)) (tempo : α) :
    (schedule sections tempo).map (List.map fun tone => (tone.pitch, tone.duration)) =
      (secondsPerBeat tempo).map fun beat =>
        ((sections.filterMap Section.melody?).flatMap Melody.notes).map (sound beat) := by
  rw [schedule]
  cases secondsPerBeat tempo with
  | error fault => rfl
  | ok beat => exact congrArg Except.ok (tonesOf_sound beat Scalar.zero _)

/-! Changed notes -/

section Map

variable {f : Note α → Note α} {g : Melody α → Melody α} {h : Section α → Section α} {shift : Int}
variable (pitch : ∀ note, (f note).pitch = note.pitch + shift)
  (duration : ∀ note, (f note).duration = note.duration)

include pitch duration

theorem tonesFrom_map (offset : α) (notes : List (Note α)) :
    tonesFrom beat origin offset (notes.map f) =
      (tonesFrom beat origin offset notes).map (Tone.transposed shift) := by
  induction notes generalizing offset with
  | nil => rfl
  | cons note notes ih =>
      rw [List.map_cons, tonesFrom, tonesFrom, List.map_cons, ← ih, pitch, duration]
      rfl

variable (notes : ∀ melody, (g melody).notes = melody.notes.map f)
  (total : ∀ melody, (g melody).total = melody.total)

include notes total

theorem tonesOf_map (melodies : List (Melody α)) :
    tonesOf beat origin (melodies.map g) =
      (tonesOf beat origin melodies).map (Tone.transposed shift) := by
  induction melodies generalizing origin with
  | nil => rfl
  | cons melody melodies ih =>
      rw [List.map_cons, tonesOf, tonesOf, notes, total, tonesFrom_map beat origin pitch duration,
        List.map_append, ← ih]

/-- Notes that are as long as before, and all by as much higher, sound when they did. -/
theorem schedule_map [Divisible α] (melody : ∀ entry, (h entry).melody? = entry.melody?.map g)
    (sections : List (Section α)) (tempo : α) :
    schedule (sections.map h) tempo =
      (schedule sections tempo).map (List.map (Tone.transposed shift)) := by
  have melodies : (sections.map h).filterMap Section.melody? =
      (sections.filterMap Section.melody?).map g := by
    rw [List.filterMap_map, List.map_filterMap]
    exact List.filterMap_congr fun entry _ => melody entry
  rw [schedule, schedule, melodies]
  cases secondsPerBeat tempo with
  | error fault => rfl
  | ok beat =>
      exact congrArg Except.ok (tonesOf_map beat Scalar.zero pitch duration notes total _)

end Map

theorem schedule_inKey [Divisible α] (key : Key) (shift : Int) (sections : List (Section α))
    (tempo : α) :
    schedule (sections.map (Section.inKey key shift)) tempo =
      (schedule sections tempo).map (List.map (Tone.transposed shift)) :=
  schedule_map (f := Note.inKey key shift) (g := Melody.inKey key shift) (fun _ => rfl)
    (fun _ => rfl) (Melody.notes_inKey key shift) (fun _ => rfl) (Section.melody?_inKey key shift)
    sections tempo

end Timeline

end Jianpu
