import Jianpu.Drawing.Layout
import Jianpu.Session.Operation

set_option autoImplicit false

/-!
A session: the document being edited, what is derived from it, and at most one capture or playback.
Every change of the document goes through one place, which reads the sections anew and hands the key to
the running capture. Starting a capture or a playback first tears down the one that is running.
-/
namespace Jianpu

open Number (Amount)
open Capture (Cell Recorder Source CaptureFault)
open Notation (Section)

/-- A capture that a session has begun, with its source. -/
structure Recording where
  source : Source (List Operation)
  recorder : Recorder := {}

/-- A recording of a source that has heard nothing yet. -/
def Recording.ofSource (logarithm : Pitch.Logarithm) (source : Source (List Operation)) : Recording :=
  { source, recorder := { logarithm } }

/-- A source that a session was asked to record from, and the recording it was taken for, if any. -/
structure Offer where
  source : Source (List Operation)
  recording : Option Nat

/-- What a session has asked of its scheduler, been offered and replied to asides, in order. Nothing it
does depends on it. -/
structure Journal where
  calls : List (SchedulerCall Float) := []
  offers : List Offer := []
  replies : List SessionReply := []

/-- The state of a session. -/
structure Session where
  document : Document
  /-- The meaning of the document's blocks. -/
  sections : List (Section Float)
  /-- The state shared with the running capture. -/
  cell : Cell := {}
  status : String := ""
  captureError : Option String := none
  /-- Every recording begun so far; one that has been let go may still be waiting for a detection. -/
  recordings : List Recording := []
  /-- The number of the recording that is held. -/
  held : Option Nat := none
  playback : Option (Playback Float) := none
  /-- The chords that tune a singer in. -/
  cadence : Option (Playback Float) := none
  hasScheduler : Bool := true
  /-- What captures round frequencies with. -/
  logarithm : Pitch.Logarithm := Pitch.binaryLogarithm
  journal : Journal := {}

namespace Session

/-- Takes a document over: the sections are read anew and the capture is told the key. -/
def adopt (session : Session) (document : Document) : Session :=
  { session with
    document
    sections := document.sections
    cell := { session.cell with keyIndex := some document.keyIndex } }

/-- A session with a document. -/
def ofDocument (document : Document) (hasScheduler : Bool)
    (logarithm : Pitch.Logarithm := Pitch.binaryLogarithm) : Session :=
  { document
    sections := document.sections
    cell := { keyIndex := some document.keyIndex }
    hasScheduler
    logarithm }

/-- Notes calls made on the scheduler. -/
def called (session : Session) (calls : List (SchedulerCall Float)) : Session :=
  { session with journal := { session.journal with calls := session.journal.calls ++ calls } }

/-- The block being recorded. -/
def recordingBlock (session : Session) : Option Int :=
  session.cell.recordingBlock

/-- True while a playback that was started has not been stopped. -/
def isPlaying (session : Session) : Bool :=
  (session.playback.map (·.active)).getD false

/-! Captures. -/

/-- The state of a recording by its number. -/
def recorderOf (session : Session) (number : Nat) : Recorder :=
  (session.recordings[number]?.map (·.recorder)).getD {}

/-- Gives a recording a new state. -/
def withRecorder (session : Session) (number : Nat) (recorder : Recorder) : Session :=
  { session with
    recordings := session.recordings.modify number fun recording => { recording with recorder } }

/-- Lets go of the recording that is held. -/
def release (session : Session) : Session :=
  { session with
    cell := { session.cell with recordingBlock := none, detectedLabel := "" }
    held := none }

/-- Silences the reference cadence. -/
def stopCadence (session : Session) : Session :=
  match session.cadence with
  | none => session
  | some cadence => { session with cadence := none }.called cadence.stop.2

/-- Stops recording, and the reference cadence if it is still sounding. -/
def stopCapture (session : Session) : Session :=
  let silent := session.release.stopCadence
  match session.held with
  | none => silent
  | some number => silent.withRecorder number (silent.recorderOf number).stop

/-- Stops playback. -/
def stopPlayback (session : Session) : Session :=
  match session.playback with
  | none => session
  | some playback => { session with playback := none }.called playback.stop.2

/-- Plays the reference cadence of the document's key. -/
def startCadence (session : Session) : Session :=
  let (cadence, calls) := Playback.start ⟨Timeline.cadence session.document.key, false⟩
  { session with cadence := some cadence }.called calls

/-- Notes that a source was offered. -/
def offered (session : Session) (source : Source (List Operation)) (recording : Option Nat) : Session :=
  { session with
    journal := { session.journal with offers := session.journal.offers ++ [⟨source, recording⟩] } }

/-- Begins to record into a block, with everything else silent. -/
def beginCapture (session : Session) (index : Int) (source : Source (List Operation))
    (playReference : Bool) : Session :=
  let silent := session.stopPlayback.stopCadence
  let tuned := if playReference && silent.hasScheduler then silent.startCadence else silent
  let number := tuned.recordings.length
  let begun : Session :=
    { tuned with
      cell := { tuned.cell with recordingBlock := some index, detectedLabel := "" }
      captureError := none
      status := "Listening..."
      recordings := tuned.recordings ++ [.ofSource tuned.logarithm source]
      held := some number }
  begun.offered source (some number)

/-- Asks to record into a block. The recording in progress ends first; asking for its own block again
only ends it. Only melody blocks can be recorded. -/
def startCapture (session : Session) (index : Int) (source : Source (List Operation))
    (playReference : Bool) : Session × SessionReply :=
  let silent := if session.recordingBlock.isSome then session.stopCapture else session
  if session.recordingBlock = some index then (silent.offered source none, .ok .done)
  else
    match silent.document.block? index with
    | none => (silent.offered source none, .error (.edit .noSuchBlock))
    | some block =>
      if block.kind = .melody then (silent.beginCapture index source playReference, .ok .capturing)
      else (silent.offered source none, .error .onlyMelody)

/-- Commits a token to a block; a block past the end of the document is passed over. -/
def appendCaptured (session : Session) (index : Int) (token : String) :
    Session × Option CaptureFault :=
  if (session.document.blocks.length : Int) ≤ index then (session, none)
  else
    match session.document.appendToBlock index token with
    | .ok document => (session.adopt document, none)
    | .error _ => (session, some .noSuchBlock)

/-- The surroundings of a recording: the session's cell and its document. -/
def stage (aside : List Operation → Session → Session) (number : Nat) :
    Capture.Stage (List Operation) Session where
  cell session := session.cell
  withCell cell session := { session with cell }
  recorder session := session.recorderOf number
  withRecorder recorder session := session.withRecorder number recorder
  aside := aside
  commit target token session := session.appendCaptured target token

/-- Reports the outcome of a run. A failed device is told by the status and keeps what was recorded;
other faults are passed on. -/
def report (session : Session) (number : Nat) (outcome : Except CaptureFault (List String)) :
    Session × SessionReply :=
  match outcome with
  | .ok tokens => (session, .ok (.tokens tokens))
  | .error (.device text) =>
    ({ session with captureError := some text, status := "Microphone error: " ++ text },
      .ok (.tokens (session.recorderOf number).committed))
  | .error fault => (session, .error (.capture fault))

/-- Runs the recording that is held to its end. It is let go of then, unless another one is held by
that time. -/
def runCapture (aside : List Operation → Session → Session) (session : Session) :
    Session × SessionReply :=
  match session.held with
  | none => (session, .ok (.tokens []))
  | some number =>
    match session.recordings[number]? with
    | none => (session, .ok (.tokens []))
    | some recording =>
      let (ran, outcome) := (stage aside number).run recording.source session
      let (told, reply) := ran.report number outcome
      (if told.held = some number then told.release else told, reply)

/-! Edits. -/

/-- Takes over the document of an edit that is not refused. -/
def edited (session : Session) (edit : Except EditError Document) : Session × SessionReply :=
  match edit with
  | .ok document => (session.adopt document, .ok .done)
  | .error error => (session, .error (.edit error))

/-- Opens a document; recording stops. -/
def loadDocument (session : Session) (document : Document) : Session :=
  session.stopCapture.adopt document

/-- Removes a block; recording stops. -/
def removeBlock (session : Session) (index : Int) : Session × SessionReply :=
  let silent := if session.recordingBlock.isSome then session.stopCapture else session
  silent.edited (silent.document.removeBlock index)

/-- Sets a key of the catalog. -/
def setKey (session : Session) (index : Int) : Session × SessionReply :=
  match Key.resolve index with
  | .error fault => (session, .error (.outOfCatalog fault))
  | .ok _ => (session.adopt (session.document.setKey index), .ok .done)

/-- The drawings of the sections, in order. -/
def drawings? (session : Session) : Option (List (Drawing Amount)) :=
  session.sections.mapM (Layout.draw? session.document.settings)

/-- Appends the melody of a score as a new block, in its own key or in the document's. -/
def importScore (session : Session) (score : Score Amount) (forceKey : Bool) :
    Session × SessionReply :=
  match Import.convert score (if forceKey then session.document.keyIndex.whole? else none) with
  | .error (.outOfCatalog fault) => (session, .error (.outOfCatalog fault))
  | .error (.number fault) => (session, .error (.number fault))
  | .ok .noNotes =>
    ({ session with status := "Failed to import score: " ++ Import.noNotesReason },
      .ok (.imported .noNotes))
  | .ok (.melody text index) =>
    (session.adopt ((session.document.addBlock .melody text).setKey index),
      .ok (.imported (.melody text index)))

/-! Playback. -/

/-- Schedules the whole document at its tempo. -/
def startPlayback (session : Session) : Session × SessionReply :=
  if !session.hasScheduler then (session, .error .noScheduler)
  else
    let silent := session.stopCapture.stopPlayback
    match silent.document.tempo.toFloat? with
    | none => (silent, .error (.number .tooLarge))
    | some tempo =>
      match Timeline.schedule silent.sections tempo with
      | .error fault => (silent, .error (.number fault))
      | .ok tones =>
        let (playback, calls) := Playback.start ⟨tones, false⟩
        ({ silent with playback := some playback }.called calls,
          .ok (.playing tones.length playback.active))

end Session

end Jianpu
