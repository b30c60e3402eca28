import Jianpu.Capture.Recorder
import Jianpu.Drawing
import Jianpu.Score.Import
import Jianpu.Timeline.Playback

set_option autoImplicit false

/-!
What a session can be asked to do, and what it replies. A capture may be asked to record from a source
whose asides are further operations, performed while the capture awaits its next detection.
-/
namespace Jianpu

open Number (Amount Fault)
open Capture (Source CaptureFault)

/-- A request to a session. -/
inductive Operation where
  | loadDocument (document : Document)
  | updateBlock (index : Int) (content : String)
  | addBlock (kindName : String)
  | removeBlock (index : Int)
  | moveBlock (index target : Int)
  | setKey (index : Int)
  | setSettings (settings : Settings Amount)
  | drawings
  | importScore (score : Score Amount) (forceKey : Bool)
  | startCapture (index : Int) (source : Source (List Operation)) (playReference : Bool)
  | runCapture
  | stopCapture
  | startPlayback
  | stopPlayback

/-- Why a session refuses an operation or fails at it. -/
inductive SessionError where
  | edit (error : EditError)
  | outOfCatalog (fault : Key.OutOfCatalog)
  /-- A capture was asked to record into a block of chords. -/
  | onlyMelody
  /-- Playback was asked for without a scheduler. -/
  | noScheduler
  | number (fault : Fault)
  | capture (fault : CaptureFault)

/-- The wording of a refusal that is the session's own. -/
def SessionError.message? : SessionError → Option String
  | .onlyMelody => some "Only melody sections can be recorded."
  | .noScheduler => some "No tone scheduler configured."
  | _ => none

/-- What an operation gives back. -/
inductive SessionResult where
  | done
  /-- A capture now records. -/
  | capturing
  /-- The tokens of the capture that has run. -/
  | tokens (tokens : List String)
  /-- The number of tones that have been scheduled, and whether they are being played. -/
  | playing (count : Nat) (active : Bool)
  | drawn (drawings : List (Drawing Amount))
  | imported (outcome : Import.Outcome)

/-- The reply to an operation. -/
abbrev SessionReply := Except SessionError SessionResult

end Jianpu
