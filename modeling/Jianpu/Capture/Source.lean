import Jianpu.Capture.Detector
import Jianpu.File.Path
import Jianpu.Number.Scalar

set_option autoImplicit false

/-!
Sources of detections. What a source yields is a list of signals: detections, failures, and asides,
which stand for whatever happens elsewhere while the next detection is awaited.
-/
namespace Jianpu.Capture

open Number (Amount Fault)

/-- Why a capture ends before its source does. -/
inductive CaptureFault where
  /-- The device or the recording failed, with its words. -/
  | device (text : String)
  /-- The source broke down in some other way. -/
  | breakdown
  /-- The estimator gave lists of different lengths. -/
  | mismatch
  /-- A number could not be used. -/
  | number (fault : Fault)
  /-- There is no block to write to. -/
  | noSuchBlock
  deriving Repr, DecidableEq

/-- What a source yields next. -/
inductive Signal (ι : Type) where
  | frame (frame : Frame Amount)
  | aside (action : ι)
  | failure (fault : CaptureFault)

/-- A source of detections. -/
structure Source (ι : Type) where
  /-- A fault that shows as soon as detections are asked for. -/
  refusal : Option CaptureFault := none
  /-- A fault that shows when the first detection is awaited. -/
  unreadable : Option CaptureFault := none
  signals : List (Signal ι)
  /-- Whether a source that has been closed yields no more detections. -/
  endsWhenClosed : Bool := true

namespace Source

variable {ι : Type}

/-- The detections of a recording; a recording that could not be decoded is told by its path and the
decoder's words. -/
def ofRecording (detector : Detector) (path : Path) (recording : Except String Estimate) :
    Source ι :=
  match recording with
  | .ok estimate =>
    match detector.track estimate with
    | .ok frames => { signals := frames.map .frame }
    | .error fault => { unreadable := some (.number fault), signals := [] }
  | .error text =>
    { unreadable := some (.device ("Could not read audio from '" ++ path.text ++ "': " ++ text))
      signals := [] }

/-- The seconds from one clip to the next unless they are given: a sixtieth. -/
def clipInterval : Amount :=
  .real (1 / 60)

/-- The signal of a clip by its number. -/
def signalOf (detector : Detector) (interval : Amount) (clip : Clip) (index : Nat) : Signal ι :=
  match detector.pitchOf clip with
  | .ok (frequency, clarity) => .frame ⟨.times index interval, .real frequency, .real clarity⟩
  | .error _ => .failure .mismatch

/-- The detections of clips of sound, one for each. -/
def ofClips (detector : Detector) (interval : Amount) (clips : List Clip) : Source ι where
  signals := clips.zipIdx.map fun (clip, index) => signalOf detector interval clip index

/-- The detections of signals up to the first failure, and that failure. -/
def heard : List (Signal ι) → List (Frame Amount) × Option CaptureFault
  | [] => ([], none)
  | .frame frame :: rest => ((frame :: (heard rest).1), (heard rest).2)
  | .aside _ :: rest => heard rest
  | .failure fault :: _ => ([], some fault)

/-- All that a source yields when it is closed after a number of detections, or never. -/
def listen (source : Source ι) (closeAfter : Option Nat) :
    List (Frame Amount) × Option CaptureFault :=
  match source.refusal.or source.unreadable with
  | some fault => ([], some fault)
  | none =>
    let (frames, fault) := heard source.signals
    match closeAfter with
    | some count =>
      if source.endsWhenClosed ∧ 0 < count ∧ count ≤ frames.length then (frames.take count, none)
      else (frames, fault)
    | none => (frames, fault)

end Source

end Jianpu.Capture
