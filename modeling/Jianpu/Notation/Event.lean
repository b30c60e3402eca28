import Jianpu.Number.Scalar
import Jianpu.Text.CodePoint

set_option autoImplicit false

/-!
What a melody text means: bars, kept for display, and notes with their pitch, length and decorations.
A block of chord text means one glyph per character.
-/
namespace Jianpu.Notation

/-- A note; lengths are numbers of type `α`. -/
structure Note (α : Type) where
  /-- Scale degree, 1 to 7. -/
  degree : Nat
  /-- Semitones up (sharp) or down (flat). -/
  accidental : Int
  /-- Octaves above or below the reference octave. -/
  octave : Int
  /-- Length in quarter notes. -/
  duration : α
  /-- Staff steps above degree 1 of the reference octave; accidentals do not move a note. -/
  staffStep : Int
  /-- MIDI note number. -/
  pitch : Int
  /-- The degree's name in the key, with the sign of a single accidental. -/
  label : String
  /-- The token as written. -/
  source : String
  /-- Number of beams, at most two. -/
  beams : Nat
  /-- Whether the note has a dot. -/
  dotted : Bool
  /-- Number of extension dashes. -/
  dashes : Nat

/-- An event of a melody. -/
inductive Event (α : Type) where
  /-- A barline, repeat sign or bracketed mark. -/
  | bar (marker : String)
  | note (n : Note α)

/-- The notes among events, in order. -/
def notesOf {α : Type} (events : List (Event α)) : List (Note α) :=
  events.filterMap fun
    | .bar _ => none
    | .note n => some n

/-- The meaning of a melody text. -/
structure Melody (α : Type) where
  events : List (Event α)
  /-- Sum of the note lengths in quarter notes. -/
  total : α

/-- The notes of a melody in order. -/
def Melody.notes {α : Type} (melody : Melody α) : List (Note α) :=
  notesOf melody.events

/-- The meaning of a block: a melody, or chord glyphs one by one. -/
inductive Section (α : Type) where
  | melody (meaning : Melody α) (source : String)
  | chords (glyphs : List Text.CodePoint) (source : String)

/-- The melodies among sections, in order. -/
def Section.melody? {α : Type} : Section α → Option (Melody α)
  | .melody meaning _ => some meaning
  | .chords _ _ => none

end Jianpu.Notation
