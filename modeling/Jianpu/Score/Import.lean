import Jianpu.Number.Scalar
import Jianpu.Pitch
import Jianpu.Score

set_option autoImplicit false

/-!
Import of a score as melody text. Of the voices the one with the most notes is written, the first of
several, and of a chord its first note. Pitches are spelled in the key of the signature or in one that
is forced; a chromatic pitch is spelled as the degree below with a sharp. Lengths go to the nearest
one that notation has.
-/
namespace Jianpu.Import

open Number (Amount Divisible Fault nearestEven)

/-- Why an import fails with an error. -/
inductive Error where
  | outOfCatalog (fault : Key.OutOfCatalog)
  | number (fault : Fault)

/-- What an import gives: text in a key, or nothing because the score has no notes. -/
inductive Outcome where
  | melody (text : String) (keyIndex : Int)
  | noNotes

/-- The wording for a score without notes. -/
def noNotesReason : String := "no notes found"

/-- The modifiers of the longest notated length that is not above a count of quarter beats. Less than a
quarter beat is written as one beat. -/
def lengthSuffix (quarters : Int) : String :=
  if 16 ≤ quarters then "---"
  else if 12 ≤ quarters then "--"
  else if 8 ≤ quarters then "-"
  else if 6 ≤ quarters then "."
  else if 4 ≤ quarters then ""
  else if 3 ≤ quarters then "_."
  else if 2 ≤ quarters then "_"
  else if 1 ≤ quarters then "="
  else ""

/-- Lengths in quarter notes that can be counted in quarter beats. -/
class NoteLength (α : Type) where
  /-- The nearest whole number of quarter beats, of two the even one. -/
  quarterBeats : α → Except Fault Int

instance : NoteLength Rat where
  quarterBeats length := .ok (nearestEven (length * 4))

/-- A whole length is counted exactly but has to be within the range of binary64. -/
instance : NoteLength Amount where
  quarterBeats length :=
    match length with
    | .whole n => if (Number.Binary64.ofInt? n).isSome then .ok (n * 4) else .error .tooLarge
    | .real x => Divisible.nearest (x * 4)

variable {α : Type} [NoteLength α]

/-- The modifiers of a length, rounded to quarter beats with ties to the even count. -/
def suffixOf (duration : α) : Except Fault String :=
  (NoteLength.quarterBeats duration).map lengthSuffix

/-- The degree below a chromatic distance from the tonic, with a sharp. -/
def sharpened : Nat → String
  | 1 => "1#"
  | 3 => "2#"
  | 6 => "4#"
  | 8 => "5#"
  | _ => "6#"

/-- The head of a pitch's token, degree and sharp, in a key. -/
def headOf (key : Key) (pitch : Int) : String :=
  match Pitch.spell? key pitch with
  | some spelling => toString spelling.degree
  | none => sharpened (Pitch.residue key pitch)

/-- The token of a pitch in a key, unless it is so far off that its octave marks cannot be written. -/
def pitchToken (key : Key) (pitch : Int) (suffix : String) : Except Fault String :=
  let octave := Pitch.octaveOf key pitch
  match Pitch.marksFault? octave with
  | some fault => .error fault
  | none => .ok (Pitch.token (headOf key pitch) octave suffix)

/-- The token of a note; a pitch that could not be read is a question mark. -/
def noteToken (key : Key) (note : ScoreNote α) : Except Fault String := do
  let suffix ← suffixOf note.duration
  match note.pitch with
  | none => return "?" ++ suffix
  | some pitch => pitchToken key pitch.value suffix

/-- The token of an event; a rest is a zero, and a chord member has none. -/
def eventToken? (key : Key) : ScoreEvent α → Except Fault (Option String)
  | .rest duration => do return some ("0" ++ (← suffixOf duration))
  | .note note => if note.chordMember then .ok none else do return some (← noteToken key note)

/-- The voice with the most notes, the first of several; a score without notes has none. -/
def chooseVoice? (voices : List (Voice α)) : Option (Voice α) :=
  voices.foldl (fun best voice =>
    if (best.map Voice.noteCount).getD 0 < voice.noteCount then some voice else best) none

/-- The key a score is written in: the forced one, or that of its signature, or C Major. -/
def keyIndexOf (score : Score α) (forced : Option Int) : Int :=
  match forced with
  | some index => index
  | none =>
    match score.fifths with
    | some fifths => Key.indexOfFifths fifths.value
    | none => Key.defaultIndex

/-- Imports a score. A forced key has to be in the catalog. -/
def convert (score : Score α) (forced : Option Int) : Except Error Outcome :=
  let index := keyIndexOf score forced
  match Key.resolve index with
  | .error fault => .error (.outOfCatalog fault)
  | .ok key =>
    match chooseVoice? score.voices with
    | none => .ok .noNotes
    | some voice =>
      match voice.events.mapM (eventToken? key) with
      | .error fault => .error (.number fault)
      | .ok tokens => .ok (.melody (" ".intercalate (tokens.filterMap id)) index)

end Jianpu.Import
