import Jianpu.Notation.Event
import Jianpu.Notation.Token
import Jianpu.Pitch

set_option autoImplicit false

/-!
Melody text read in a key. The modifiers of a note are counted, so their order does not matter:
sharps and flats add up unless a natural cancels them, octave marks add up, and the length is one beat,
halved by every underscore or a quarter under an equals sign, then longer by a beat for every hyphen,
and last half as long again under a dot. Every text has a meaning; annotation is passed over.
-/
namespace Jianpu.Notation

open Number (Scalar)

/-- Semitones of the sharps and flats; a natural cancels all of them. -/
def accidentalOf (modifiers : List Char) : Int :=
  if modifiers.contains 'n' then 0
  else (modifiers.count '#' : Int) - modifiers.count 'b'

/-- Octaves of the octave marks; a double quote counts for two. -/
def octaveOf (modifiers : List Char) : Int :=
  (modifiers.count '\'' : Int) + 2 * modifiers.count '"' - modifiers.count ','

/-- One half to the power `n`. -/
def halved {α : Type} [Scalar α] : (n : Nat) → α
  | 0 => Scalar.decimal 1 0
  | n + 1 => Scalar.decimal 5 1 * halved n

/-- The length in quarter notes. -/
def durationOf {α : Type} [Scalar α] (modifiers : List Char) : α :=
  let base : α :=
    if modifiers.contains '=' then Scalar.decimal 25 2 else halved (modifiers.count '_')
  let extended := base + Scalar.ofInt (modifiers.count '-')
  if modifiers.contains '.' then extended * Scalar.decimal 15 1 else extended

/-- The number of beams: two under an equals sign, else one per underscore and at most two. -/
def beamsOf (modifiers : List Char) : Nat :=
  if modifiers.contains '=' then 2 else min (modifiers.count '_') 2

/-- The sign that is shown for an accidental; only a single sharp or flat has one. -/
def accidentalSign (accidental : Int) : String :=
  if accidental = 1 then "#" else if accidental = -1 then "b" else ""

/-- The degree that a digit stands for. -/
def degreeOf (digit : Char) : Nat :=
  digit.toNat - '0'.toNat

/-- The note of a degree digit with modifiers. -/
def noteOf {α : Type} [Scalar α] (key : Key) (digit : Char) (modifiers : List Char) : Note α :=
  let degree := degreeOf digit
  let accidental := accidentalOf modifiers
  let octave := octaveOf modifiers
  { degree
    accidental
    octave
    duration := durationOf modifiers
    staffStep := octave * 7 + Pitch.staffOffset degree
    pitch := (Pitch.ofDegree? key degree accidental octave).getD 0
    label := (key.label? degree).getD "" ++ accidentalSign accidental
    source := String.ofList (digit :: modifiers)
    beams := beamsOf modifiers
    dotted := modifiers.contains '.'
    dashes := modifiers.count '-' }

/-- The event of a token. -/
def eventOf {α : Type} [Scalar α] (key : Key) : Token → Event α
  | .bar marker => .bar (String.ofList marker)
  | .note digit modifiers => .note (noteOf key digit modifiers)

/-- The events of a text in order. -/
def eventsOf {α : Type} [Scalar α] (key : Key) (cs : List Char) : List (Event α) :=
  (tokens cs).map (eventOf key)

/-- The sum of the lengths of the notes, from the first to the last. -/
def totalDuration {α : Type} [Scalar α] (list : List (Event α)) : α :=
  Scalar.sum ((notesOf list).map (·.duration))

/-- Reads a melody text in a key. -/
def Melody.ofText {α : Type} [Scalar α] (key : Key) (text : String) : Melody α :=
  let list := eventsOf key text.toList
  ⟨list, totalDuration list⟩

end Jianpu.Notation
