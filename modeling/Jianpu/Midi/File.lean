import Jianpu.Timeline

set_option autoImplicit false

/-!
Standard MIDI files of a melody. Three tracks: tempo and metre, an empty one, and the melody. The
events of a track are in order of time; at one tick the name and the instrument come first, then the
notes that end, then the notes that start.
-/
namespace Jianpu.Midi

open Number (Scalar Divisible Fault)

/-- Why a file could not be made. -/
inductive Error where
  | number (fault : Fault)
  /-- The track name has a character outside Latin-1. -/
  | nameNotLatin
  /-- A value does not fit its field. -/
  | outOfField
  deriving Repr, DecidableEq

/-- Ticks of a quarter note. -/
def ticksPerQuarter : Nat := 960

/-- A note of the melody track, in ticks. -/
structure Note where
  pitch : Nat
  start : Int
  stop : Int
  deriving Repr, DecidableEq

/-- The contents of a file. -/
structure File where
  /-- Microseconds of a quarter note. -/
  quarterMicros : Int
  /-- The melody's name in Latin-1. -/
  name : List UInt8
  velocity : Int
  notes : List Note

/-- The text in Latin-1, if all its characters are there. -/
def latin1? (text : String) : Option (List UInt8) :=
  text.toList.mapM fun c => if c.toNat < 256 then some c.toNat.toUInt8 else none

/-- A pitch moved into the range of MIDI notes. -/
def clampPitch (pitch : Int) : Nat :=
  (max 0 (min 127 pitch)).toNat

section Build

variable {α : Type} [Scalar α] [Divisible α]

/-- The whole ticks of a time in seconds, at the seconds of a beat. -/
def ticks (beat seconds : α) : Except Fault Int :=
  if Divisible.isZero beat then .error .divisionByZero
  else Divisible.wholePart (seconds / beat * Scalar.ofInt ticksPerQuarter)

/-- A tone in ticks. Its end is its start and its own length, each rounded down by itself. -/
def noteOf (tempo : α) (tone : Tone α) : Except Fault Note := do
  let beat ← Timeline.secondsPerBeat tempo
  let start ← ticks beat tone.start
  let length ← ticks beat tone.duration
  return ⟨clampPitch tone.pitch, start, start + length⟩

/-- The microseconds of a quarter note at a tempo, rounded down. -/
def quarterMicrosOf (tempo : α) : Except Fault Int :=
  if Divisible.isZero tempo then .error .divisionByZero
  else Divisible.wholePart (Scalar.ofInt 60000000 / tempo)

/-- The file of tones at a tempo in beats per minute. -/
def File.ofTones (tones : List (Tone α)) (tempo : α) (velocity : Int) (name : String) :
    Except Error File := do
  let quarterMicros ← (quarterMicrosOf tempo).mapError .number
  let name ← (latin1? name).elim (.error .nameNotLatin) .ok
  let notes ← (tones.mapM (noteOf tempo)).mapError .number
  return ⟨quarterMicros, name, velocity, notes⟩

end Build

/-- A number in `count` octets, the most significant first. -/
def bigEndian : (count : Nat) → Nat → List UInt8
  | 0, _ => []
  | count + 1, n => bigEndian count (n / 256) ++ [(n % 256).toUInt8]

/-- The octets of a positive number in groups of seven bits, all but the last marked. -/
def sevenBitGroups : (fuel n : Nat) → (last : Bool) → List UInt8
  | 0, _, _ => []
  | fuel + 1, n, last =>
    if n = 0 then []
    else
      sevenBitGroups fuel (n / 128) false ++ [(n % 128 + if last then 0 else 128).toUInt8]

/-- A variable-length quantity. A negative number has no octets at all. -/
def variableLength (n : Int) : List UInt8 :=
  if n = 0 then [0] else sevenBitGroups (n.toNat.log2 + 1) n.toNat true

/-- An event of a track: when it happens, its class among the events of one tick, and its octets. -/
structure TrackEvent where
  tick : Int
  rank : Nat
  octets : List UInt8
  deriving Repr, DecidableEq

/-- The order of events: by tick, then by class. -/
def TrackEvent.notAfter (left right : TrackEvent) : Bool :=
  left.tick < right.tick || (left.tick == right.tick && left.rank ≤ right.rank)

/-- The event that starts a note. -/
def startEvent (velocity : Nat) (note : Note) : TrackEvent :=
  ⟨note.start, 3, [0x90, note.pitch.toUInt8, velocity.toUInt8]⟩

/-- The event that ends a note. -/
def stopEvent (velocity : Nat) (note : Note) : TrackEvent :=
  ⟨note.stop, 2, [0x80, note.pitch.toUInt8, velocity.toUInt8]⟩

/-- The melody track's events in order. Events of one tick and class keep the order of their notes. -/
def melodyEvents (name : List UInt8) (velocity : Nat) (notes : List Note) : List TrackEvent :=
  let nameEvent := ⟨0, 0, [0xFF, 0x03] ++ variableLength name.length ++ name⟩
  let instrument := ⟨0, 1, [0xC0, 0x00]⟩
  let noteEvents := notes.flatMap fun note => [startEvent velocity note, stopEvent velocity note]
  (nameEvent :: instrument :: noteEvents).mergeSort TrackEvent.notAfter

/-- Events with the ticks since the event before in front of each. -/
def withDeltas : (previous : Int) → List TrackEvent → List UInt8
  | _, [] => []
  | previous, event :: rest =>
    variableLength (event.tick - previous) ++ event.octets ++ withDeltas event.tick rest

/-- A track with its header and its closing event. -/
def trackChunk (events : List UInt8) : List UInt8 :=
  let body := events ++ [0x00, 0xFF, 0x2F, 0x00]
  "MTrk".toUTF8.toList ++ bigEndian 4 body.length ++ body

/-- The header of a file of three tracks. -/
def header : List UInt8 :=
  "MThd".toUTF8.toList ++ bigEndian 4 6 ++ bigEndian 2 1 ++ bigEndian 2 3
    ++ bigEndian 2 ticksPerQuarter

/-- Metre and tempo. The tempo event holds the low three octets of the quarter's microseconds. -/
def conductorEvents (quarterMicros : Nat) : List UInt8 :=
  [0x00, 0xFF, 0x58, 0x04, 0x04, 0x02, 0x18, 0x08, 0x00, 0xFF, 0x51, 0x03]
    ++ bigEndian 3 quarterMicros

/-- The three tracks of a file. The tempo has to fit four octets, and the velocity one. -/
def File.tracks (file : File) : Except Error (List UInt8) :=
  if file.quarterMicros < 0 ∨ 0x100000000 ≤ file.quarterMicros then .error .outOfField
  else if file.notes ≠ [] ∧ (file.velocity < 0 ∨ 255 < file.velocity) then .error .outOfField
  else
    let melody := melodyEvents file.name file.velocity.toNat file.notes
    .ok (trackChunk (conductorEvents file.quarterMicros.toNat) ++ trackChunk []
      ++ trackChunk (withDeltas 0 melody))

/-- The octets of a file. -/
def File.octets (file : File) : Except Error (List UInt8) :=
  (file.tracks).map (header ++ ·)

end Jianpu.Midi
