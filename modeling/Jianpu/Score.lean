import Jianpu.Number.Whole

set_option autoImplicit false

/-!
Scores to import melodies from: voices of notes and rests in quarter notes, whatever file they came
from. The further notes of a chord follow its first one and are marked as its members.
-/
namespace Jianpu

open Number (Whole)

/-- A note of a source score; its pitch is missing when it could not be read. -/
structure ScoreNote (α : Type) where
  pitch : Option Whole
  start : α
  duration : α
  chordMember : Bool := false

/-- An event of a voice. -/
inductive ScoreEvent (α : Type) where
  | note (n : ScoreNote α)
  | rest (duration : α)

/-- True of notes, whether their pitch could be read or not. -/
def ScoreEvent.isNote {α : Type} : ScoreEvent α → Bool
  | .note _ => true
  | .rest _ => false

/-- A voice with its events in order. -/
structure Voice (α : Type) where
  name : String
  events : List (ScoreEvent α)

/-- The number of notes of a voice, chord members included. -/
def Voice.noteCount {α : Type} (voice : Voice α) : Nat :=
  voice.events.countP ScoreEvent.isNote

/-- A source score. -/
structure Score (α : Type) where
  /-- Sharps of the key signature, or flats below zero, if it has one. -/
  fifths : Option Whole
  voices : List (Voice α)

end Jianpu
