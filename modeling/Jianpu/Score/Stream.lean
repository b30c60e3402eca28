import Jianpu.File.Path
import Jianpu.Number.Scalar
import Jianpu.Score
import Jianpu.Text.Case

set_option autoImplicit false

/-!
Decoded score files. A decoder hands a file over as a stream: elements with their lengths and offsets,
key signatures, and parts that are streams themselves. Reading makes a score of it, with one voice per
part, and never drops an element: a note of which no pitch is left stays as an unreadable one. A number
that is not finite cannot be read.
-/
namespace Jianpu

open Number (Fault Whole)

/-- An element of a stream: a rest, or pitches that sound together, each readable or not. -/
structure StreamElement (α : Type) where
  quarters : α
  offset : α
  isRest : Bool
  pitches : List (Option Whole)

/-- The elements of a part under its name. -/
structure StreamPart (α : Type) where
  /-- The part's name; empty when it has none. -/
  name : String
  elements : List (StreamElement α)

/-- A decoded file. -/
structure ScoreStream (α : Type) where
  /-- The parts, if the stream is divided into parts. -/
  parts : List (StreamPart α)
  /-- The stream's own elements, which count when it has no parts. -/
  own : StreamPart α
  /-- The signatures in order, each a count of sharps if that is known. -/
  signatures : List (Option Whole)

namespace ScoreStream

variable {α : Type}

/-- The events of an element: a rest, or the first pitch and after it the others as chord members. An
element without pitches is one unreadable note. -/
def eventsOf (element : StreamElement α) : List (ScoreEvent α) :=
  if element.isRest then [.rest element.quarters]
  else
    match element.pitches with
    | [] => [.note ⟨none, element.offset, element.quarters, false⟩]
    | first :: others =>
      .note ⟨first, element.offset, element.quarters, false⟩
        :: others.map fun pitch => .note ⟨pitch, element.offset, element.quarters, true⟩

/-- The voice of the part at an index. A part without a name is named by its number. -/
def voiceOf (part : StreamPart α) (index : Nat) : Voice α :=
  { name := if part.name.isEmpty then "Part " ++ toString (index + 1) else part.name
    events := part.elements.flatMap eventsOf }

/-- The parts of a stream; one that is not divided is a part itself. -/
def allParts (stream : ScoreStream α) : List (StreamPart α) :=
  if stream.parts.isEmpty then [stream.own] else stream.parts

/-- The parts of a stream that are read: all or only the first. -/
def partsRead (stream : ScoreStream α) (firstPartOnly : Bool) : List (StreamPart α) :=
  if firstPartOnly then stream.allParts.take 1 else stream.allParts

/-- The score of a stream, with its first known signature, and of its parts all or only the first. -/
def toScore (stream : ScoreStream α) (firstPartOnly : Bool) : Score α :=
  { fifths := stream.signatures.findSome? id
    voices := (stream.partsRead firstPartOnly).zipIdx.map fun (part, index) => voiceOf part index }

/-- An element whose numbers are there: its length first, then its offset, which a rest has too. -/
def settledElement (element : StreamElement (Except Fault α)) : Except Fault (StreamElement α) := do
  let quarters ← element.quarters
  let offset ← element.offset
  return { quarters, offset, isRest := element.isRest, pitches := element.pitches }

/-- A part whose numbers are there. -/
def settledPart (part : StreamPart (Except Fault α)) : Except Fault (StreamPart α) := do
  return { name := part.name, elements := ← part.elements.mapM settledElement }

/-- The score of a stream whose numbers may be unreadable; those of parts that are not read do not
matter. -/
def readScore (stream : ScoreStream (Except Fault α)) (firstPartOnly : Bool) :
    Except Fault (Score α) := do
  let parts ← (stream.partsRead firstPartOnly).mapM settledPart
  return toScore { parts, own := ⟨"", []⟩, signatures := stream.signatures } false

end ScoreStream

/-- The encodings of score files. -/
inductive ScoreFormat where
  | musicXml
  | midi
  deriving Repr, DecidableEq

namespace ScoreFormat

/-- The name of an encoding. -/
def name : ScoreFormat → String
  | .musicXml => "musicxml"
  | .midi => "midi"

/-- The suffixes of score files, in alphabetical order. -/
def suffixes : List (String × ScoreFormat) :=
  [(".mid", .midi), (".midi", .midi), (".musicxml", .musicXml), (".mxl", .musicXml),
    (".xml", .musicXml)]

/-- The encoding that a file's suffix stands for. -/
def ofPath? (path : Path) : Option ScoreFormat :=
  (suffixes.find? fun entry => entry.1 == Text.lower path.suffix).map (·.2)

/-- Whether only the first part of a file counts; the tracks of a MIDI file all do. -/
def firstPartOnly : ScoreFormat → Bool
  | .musicXml => true
  | .midi => false

end ScoreFormat

/-- Why a score could not be read. -/
inductive ScoreReadError where
  /-- The suffix of the file stands for no encoding. -/
  | unsupported (fileName : String)
  /-- The decoder refused the file. -/
  | undecodable (what reason : String)
  /-- A length or an offset is not finite. -/
  | number (fault : Fault)

/-- The wording of a read error; there is none for an unreadable number. -/
def ScoreReadError.message? : ScoreReadError → Option String
  | .unsupported fileName =>
    some ("Unsupported score file '" ++ fileName ++ "'. Use one of: "
      ++ ", ".intercalate (ScoreFormat.suffixes.map (·.1)) ++ ".")
  | .undecodable what reason => some ("Could not read " ++ what ++ ": " ++ reason)
  | .number _ => none

namespace Score

variable {α : Type}

/-- Reads what a decoder makes of a source. -/
def ofDecoded (what : String) (firstPartOnly : Bool)
    (decoded : Except String (ScoreStream (Except Fault α))) : Except ScoreReadError (Score α) :=
  match decoded with
  | .error reason => .error (.undecodable what reason)
  | .ok stream => (stream.readScore firstPartOnly).mapError .number

/-- Reads MusicXML text with a decoder. -/
def ofMusicXml (decoded : Except String (ScoreStream (Except Fault α))) :
    Except ScoreReadError (Score α) :=
  ofDecoded "MusicXML" true decoded

/-- Reads a file with a decoder, which is asked only for a file of a known suffix. -/
def ofFile (decode : ScoreFormat → Except String (ScoreStream (Except Fault α))) (path : Path) :
    Except ScoreReadError (Score α) :=
  match ScoreFormat.ofPath? path with
  | none => .error (.unsupported path.name)
  | some format => ofDecoded path.name format.firstPartOnly (decode format)

end Score

end Jianpu
