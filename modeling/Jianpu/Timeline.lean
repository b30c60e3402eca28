import Jianpu.Document

set_option autoImplicit false

/-!
The timeline of a document: every note of its melody blocks as a tone with a start and a duration in
seconds. The blocks follow one another without a gap; chord blocks are silent and take no time.
-/
namespace Jianpu

open Number (Scalar Divisible Fault Amount)
open Notation (Note Section Melody)

/-- A tone that sounds from a time on, in seconds. -/
structure Tone (α : Type) where
  /-- MIDI note number. -/
  pitch : Int
  start : α
  duration : α
  velocity : Int := 80

/-- A tone with its times in other numbers. -/
def Tone.map {α β : Type} (f : α → β) (tone : Tone α) : Tone β :=
  { tone with start := f tone.start, duration := f tone.duration }

namespace Timeline

variable {α : Type} [Scalar α]

/-- The part of a note's length that sounds: nine tenths. -/
def gate : α := Scalar.decimal 9 1

/-- The tones of notes in order; each note starts `offset` seconds after `origin` and moves the offset
on by its length. -/
def tonesFrom (beat origin : α) : (offset : α) → List (Note α) → List (Tone α)
  | _, [] => []
  | offset, note :: rest =>
    let length := note.duration * beat
    { pitch := note.pitch, start := origin + offset, duration := length * gate }
      :: tonesFrom beat origin (offset + length) rest

/-- The tones of melodies in order, the first starting at `origin`. -/
def tonesOf (beat : α) : (origin : α) → List (Melody α) → List (Tone α)
  | _, [] => []
  | origin, melody :: rest =>
    tonesFrom beat origin Scalar.zero melody.notes
      ++ tonesOf beat (origin + melody.total * beat) rest

/-- The seconds of a beat at a tempo; there are none at tempo zero. -/
def secondsPerBeat [Divisible α] (tempo : α) : Except Fault α :=
  if Divisible.isZero tempo then .error .divisionByZero else .ok (Scalar.decimal 60 0 / tempo)

/-- The tones of sections at a tempo in beats per minute. -/
def schedule [Divisible α] (sections : List (Section α)) (tempo : α) :
    Except Fault (List (Tone α)) := do
  let beat ← secondsPerBeat tempo
  return tonesOf beat Scalar.zero (sections.filterMap Section.melody?)

/-- The seconds until the last tone has died away, half a second after its end. -/
def length (tones : List (Tone α)) : α :=
  match tones.map fun tone => tone.start + tone.duration with
  | [] => Scalar.zero
  | first :: rest => rest.foldl Scalar.larger first + Scalar.decimal 5 1

/-- The tones of a document at a tempo. -/
def ofDocument (document : Document) (tempo : Amount) : Except Fault (List (Tone Float)) :=
  match tempo.toFloat? with
  | none => .error .tooLarge
  | some tempo => schedule document.sections tempo

/-- The pitch of a degree counted on past the seventh into the next octave. -/
def chordPitch (key : Key) (degree : Nat) : Int :=
  (Pitch.ofDegree? key ((degree - 1) % 7 + 1 : Nat) 0 ((degree - 1) / 7 : Nat)).getD 0

/-- A chord of degrees that starts together and lasts as long. -/
def chord (key : Key) (degrees : List Nat) (start duration : α) : List (Tone α) :=
  degrees.map fun degree => { pitch := chordPitch key degree, start, duration }

/-- The chords I, IV and I, which tune a singer in to a key. -/
def cadence (key : Key) : List (Tone α) :=
  chord key [1, 3, 5] (Scalar.decimal 0 0) (Scalar.decimal 8 1)
    ++ chord key [4, 6, 8] (Scalar.decimal 1 0) (Scalar.decimal 8 1)
    ++ chord key [1, 3, 5] (Scalar.decimal 2 0) (Scalar.decimal 15 1)

end Timeline

end Jianpu
