import Jianpu.Key
import Jianpu.Number.Scalar
import Jianpu.Position

set_option autoImplicit false

/-!
Pitches as MIDI note numbers, and their spelling as scale degrees of a key. Degree 1 without octave
marks sounds in octave 4; a pitch is spelled by the degree at its distance from the tonic, and five of
the twelve distances have none.
-/
namespace Jianpu.Pitch

/-- The MIDI note of a pitch class in a scientific octave; octave 4 starts at note 60. -/
def ofClass (pitchClass octave : Int) : Int :=
  (octave + 1) * 12 + pitchClass

/-- The MIDI note of degree 1 without octave marks. -/
def tonic (key : Key) : Int :=
  ofClass key.tonicClass 4

/-- Semitones of degrees 1 to 7 above the tonic. -/
def majorScale : Vector Int 7 :=
  #v[0, 2, 4, 5, 7, 9, 11]

/-- Staff steps of a degree above the tonic. -/
def staffOffset (degree : Int) : Int :=
  degree - 1

/-- Semitones of a degree above the tonic. Degrees 0 to -6 count down from the seventh. -/
def semitones? (degree : Int) : Option Int :=
  (position? 7 (degree - 1)).map fun index => majorScale[index]

/-- The MIDI note of a degree with an accidental and octave marks; there is none for degrees outside
-6 to 7. -/
def ofDegree? (key : Key) (degree accidental octave : Int) : Option Int :=
  (semitones? degree).map fun semitones => tonic key + semitones + 12 * octave + accidental

/-- The degree at a distance of 0 to 11 semitones above the tonic. -/
def degreeAt? : Nat → Option Nat
  | 0 => some 1
  | 2 => some 2
  | 4 => some 3
  | 5 => some 4
  | 7 => some 5
  | 9 => some 6
  | 11 => some 7
  | _ => none

/-- A pitch spelled as a degree with octave marks; no accidental is ever needed. -/
structure Spelling where
  degree : Nat
  octave : Int
  deriving Repr, DecidableEq

/-- The octave of a pitch relative to the tonic's, by floor division. -/
def octaveOf (key : Key) (pitch : Int) : Int :=
  (pitch - tonic key).fdiv 12

/-- The distance of a pitch above the tonic of its own octave. -/
def residue (key : Key) (pitch : Int) : Nat :=
  ((pitch - tonic key).fmod 12).toNat

/-- The spelling of a pitch in a key; a chromatic pitch has none. -/
def spell? (key : Key) (pitch : Int) : Option Spelling :=
  (degreeAt? (residue key pitch)).map fun degree => ⟨degree, octaveOf key pitch⟩

/-- Octave marks: an apostrophe for every octave up, a comma for every octave down. -/
def octaveMarks (octave : Int) : List Char :=
  if 0 < octave then List.replicate octave.toNat '\''
  else List.replicate (-octave).toNat ','

/-- Why the marks of an octave cannot be written: there are too many to be counted. -/
def marksFault? (octave : Int) : Option Number.Fault :=
  if isCountable octave && isCountable (-octave) then none else some .tooLarge

/-- A notation token: a head such as a degree, its octave marks, and a suffix. -/
def token (head : String) (octave : Int) (suffix : String) : String :=
  head ++ String.ofList (octaveMarks octave) ++ suffix

/-- The token of a spelled pitch. -/
def Spelling.token (spelling : Spelling) (suffix : String) : String :=
  Pitch.token (toString spelling.degree) spelling.octave suffix

/-- Names of the twelve pitch classes. -/
def className : Nat → String
  | 0 => "C"
  | 1 => "C#"
  | 2 => "D"
  | 3 => "D#"
  | 4 => "E"
  | 5 => "F"
  | 6 => "F#"
  | 7 => "G"
  | 8 => "G#"
  | 9 => "A"
  | 10 => "A#"
  | _ => "B"

/-- The scientific name of a pitch, such as `C4` for note 60. -/
def name (pitch : Int) : String :=
  className (pitch.fmod 12).toNat ++ toString (pitch.fdiv 12 - 1)

/-- The token that live capture writes for a pitch: the degree and octave marks of a pitch of the
scale, and nothing for a chromatic one. -/
def captureToken? (key : Key) (pitch : Int) : Option String :=
  (spell? key pitch).map fun spelling => spelling.token ""

end Jianpu.Pitch
