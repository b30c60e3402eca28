import Jianpu.Capture.Frame
import Jianpu.Number.BlockSum
import Jianpu.Number.Scalar

set_option autoImplicit false

/-!
The detector of pitches in sound. The estimate of the fundamental frequency belongs to a tool outside
the library; here is what the tool is asked for and what its answer is taken to say.
-/
namespace Jianpu.Capture

open Number (Amount Fault)

/-- The width of a sound sample. -/
inductive Precision where
  | single
  | double

/-- The settings of a detector: the sample rate in Hz, the length of an analysed frame and the step
from one to the next in samples, and the bounds of the frequency in Hz. -/
structure Detector where
  sampleRate : Amount := 22050
  frameLength : Amount := 2048
  hopLength : Amount := 512
  minFrequency : Amount := .real 60
  maxFrequency : Amount := .real 2000

/-- What the estimator is asked to analyse: a number of samples of a width, with frames that are
centred at their times or start there. -/
structure EstimateRequest where
  length : Int
  precision : Precision
  detector : Detector
  centred : Bool

/-- What the estimator answers: a frequency for every frame, which is no number where the frame is not
voiced, and the probability that the frame is voiced. -/
structure Estimate where
  frequencies : List Float
  voicing : List Float

/-- A clip of sound by its length in samples, and what the estimator makes of it. -/
structure Clip where
  length : Int
  estimate : Estimate

/-- The estimator gave different numbers of frequencies and probabilities. -/
structure EstimateMismatch where

namespace Detector

/-- The largest finite binary64 number. -/
def largestFinite : Float :=
  Float.ofScientific 17976931348623157 false 292

/-- A frequency, with zero for what is no number. -/
def heardFrequency (frequency : Float) : Float :=
  if frequency.isNaN then 0
  else if frequency.isInf then (if frequency < 0 then -largestFinite else largestFinite)
  else frequency

/-- The larger of two numbers; what is no number prevails. -/
def highest (left right : Float) : Float :=
  if left.isNaN then left else if right.isNaN then right else if left < right then right else left

/-- What the estimator is asked about a clip; clips shorter than a frame are not analysed. -/
def request? (detector : Detector) (clip : Clip) : Option EstimateRequest :=
  if (Amount.whole clip.length).less detector.frameLength then none
  else some ⟨clip.length, .single, detector, false⟩

/-- The frequency and the clarity of a clip: the median and the average over its voiced frames. Without
a voiced frame the frequency is zero and the clarity the highest probability. -/
def pitchOf (detector : Detector) (clip : Clip) : Except EstimateMismatch (Float × Float) :=
  match detector.request? clip with
  | none => .ok (0, 0)
  | some _ =>
    let frequencies := clip.estimate.frequencies.map heardFrequency
    let voiced := frequencies.filter (0 < ·)
    if voiced.isEmpty then .ok (0, clip.estimate.voicing.foldl highest 0)
    else if frequencies.length ≠ clip.estimate.voicing.length then .error {}
    else
      let clarities := (frequencies.zip clip.estimate.voicing).filter (0 < ·.1)
      .ok (Number.BlockSum.median voiced, Number.BlockSum.mean (clarities.map (·.2)))

/-- The count of the whole numbers of 64 bits. -/
def wordCount : Nat := 0x10000000000000000

/-- The samples up to a frame by its number. A whole step is counted in 64 bits, which wrap around, and
has to fit them itself. -/
def samplesUpTo (detector : Detector) (index : Nat) : Except Fault Float :=
  match detector.hopLength with
  | .real hop => .ok (Number.Binary64.nearest index * hop)
  | .whole hop =>
    if Int.bmod hop wordCount = hop then
      .ok (Number.Binary64.nearest (Int.bmod (index * hop) wordCount : Int))
    else .error .tooLarge

/-- The time of a frame by its number. -/
def timeOf (detector : Detector) (index : Nat) : Except Fault Float := do
  let samples ← detector.samplesUpTo index
  match detector.sampleRate.toFloat? with
  | some rate => return samples / rate
  | none => throw .tooLarge

/-- What the estimator is asked about a whole recording. -/
def trackRequest (detector : Detector) (length : Int) (precision : Precision) : EstimateRequest :=
  ⟨length, precision, detector, true⟩

/-- A detection for every frame of a whole recording. -/
def track (detector : Detector) (estimate : Estimate) : Except Fault (List (Frame Amount)) := do
  let _ ← detector.timeOf 0
  (estimate.frequencies.zip estimate.voicing).zipIdx.mapM fun ((frequency, voicing), index) => do
    let time ← detector.timeOf index
    return ⟨.real time, .real (heardFrequency frequency), .real voicing⟩

end Detector

end Jianpu.Capture
