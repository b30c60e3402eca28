import Jianpu.Capture.Filter
import Jianpu.Capture.Source
import Jianpu.Pitch
import Jianpu.Pitch.Frequency

set_option autoImplicit false

/-!
The capture loop. On every turn it reads the block to write to and the key from a cell that its
surroundings may change, awaits a detection, and commits the token of a pitch that counts. It ends
with its source, when it is stopped, or when no block is being recorded, and then closes the source.
-/
namespace Jianpu.Capture

open Number (Amount Fault)

/-- What a capture and its surroundings share. -/
structure Cell where
  recordingBlock : Option Int := none
  /-- The catalog index of the key; C Major where there is none. -/
  keyIndex : Option Amount := some (.whole Key.defaultIndex)
  /-- The name of the pitch that was heard last. -/
  detectedLabel : String := ""

/-- The key of a cell. -/
def Cell.key (cell : Cell) : Key :=
  Key.ofStored (cell.keyIndex.bind Amount.whole?)

/-- The state of a capture. -/
structure Recorder where
  filter : Filter Amount := .standard
  /-- What frequencies are rounded to notes with. -/
  logarithm : Pitch.Logarithm := Pitch.binaryLogarithm
  memory : Filter.State Amount := {}
  active : Bool := false
  /-- The tokens committed so far, of all runs. -/
  committed : List String := []
  /-- How often the source has been closed. -/
  closings : Nat := 0

namespace Recorder

/-- Begins a run. -/
def start (recorder : Recorder) : Recorder :=
  { recorder with active := true }

/-- Ends a run and closes the source; stopping again does nothing. -/
def stop (recorder : Recorder) : Recorder :=
  if recorder.active then { recorder with active := false, closings := recorder.closings + 1 }
  else recorder

/-- What comes of a detection: the state after it, the label of a credible one, and the token of a
pitch that counts and belongs to the key. -/
structure Hearing where
  recorder : Recorder
  label : Option String := none
  token : Except Fault (Option String)

/-- Hears a detection in a key. -/
def hear (recorder : Recorder) (key : Key) (frame : Frame Amount) : Hearing :=
  let round := Pitch.ofAmount recorder.logarithm
  let (memory, counted) := recorder.filter.hear round recorder.memory frame
  let label :=
    if recorder.filter.credible frame then
      (round frame.frequency).toOption.map Pitch.name
    else none
  { recorder := { recorder with memory }
    label
    token := counted.map fun pitch => pitch.bind (Pitch.captureToken? key) }

end Recorder

/-- The surroundings of a capture: where its cell and its state are kept, what an aside does, and how a
token is committed to a block. -/
structure Stage (ι σ : Type) where
  cell : σ → Cell
  withCell : Cell → σ → σ
  recorder : σ → Recorder
  withRecorder : Recorder → σ → σ
  aside : ι → σ → σ
  commit : (target : Int) → (token : String) → σ → σ × Option CaptureFault

namespace Stage

variable {ι σ : Type}

/-- The block to write to on the next turn; there is none once the capture has been stopped. -/
def target? (stage : Stage ι σ) (state : σ) : Option Int :=
  if (stage.recorder state).active then (stage.cell state).recordingBlock else none

/-- Shows the label of a credible detection. -/
def show? (stage : Stage ι σ) (label : Option String) (state : σ) : σ :=
  match label with
  | some label => stage.withCell { stage.cell state with detectedLabel := label } state
  | none => state

/-- Takes a detection in and commits the token that comes of it. -/
def deliver (stage : Stage ι σ) (target : Int) (frame : Frame Amount) (state : σ) :
    σ × Option CaptureFault :=
  let heard := (stage.recorder state).hear (stage.cell state).key frame
  let shown := stage.show? heard.label (stage.withRecorder heard.recorder state)
  match heard.token with
  | .error fault => (shown, some (.number fault))
  | .ok none => (shown, none)
  | .ok (some token) =>
    let committed := heard.recorder.committed ++ [token]
    stage.commit target token (stage.withRecorder { heard.recorder with committed } shown)

/-- True when the source has been closed and yields nothing more for that. -/
def exhausted (stage : Stage ι σ) (source : Source ι) (state : σ) : Bool :=
  source.endsWhenClosed && decide (0 < (stage.recorder state).closings)

/-- Awaits a detection for a block and goes on from there. -/
def await (stage : Stage ι σ) (source : Source ι) :
    (target : Int) → List (Signal ι) → σ → σ × Option CaptureFault
  | _, [], state => (state, none)
  | target, .aside action :: rest, state => stage.await source target rest (stage.aside action state)
  | _, .failure fault :: _, state =>
    if stage.exhausted source state then (state, none) else (state, some fault)
  | target, .frame frame :: rest, state =>
    if stage.exhausted source state then (state, none)
    else
      let (delivered, fault) := stage.deliver target frame state
      match fault, stage.target? delivered with
      | some fault, _ => (delivered, some fault)
      | none, none => (delivered, none)
      | none, some target => stage.await source target rest delivered

/-- Asks a source for detections and consumes them. -/
def consume (stage : Stage ι σ) (source : Source ι) (state : σ) : σ × Option CaptureFault :=
  match source.refusal, stage.target? state with
  | some fault, _ => (state, some fault)
  | none, none => (state, none)
  | none, some target =>
    match source.unreadable with
    | some fault => (state, some fault)
    | none => stage.await source target source.signals state

/-- Stops the capture. -/
def stop (stage : Stage ι σ) (state : σ) : σ :=
  stage.withRecorder (stage.recorder state).stop state

/-- Runs a capture to its end; the outcome is all tokens it has committed, or the fault it ended on. -/
def run (stage : Stage ι σ) (source : Source ι) (state : σ) :
    σ × Except CaptureFault (List String) :=
  let started := stage.withRecorder (stage.recorder state).start state
  let (consumed, fault) := stage.consume source started
  let final := stage.stop consumed
  match fault with
  | some fault => (final, .error fault)
  | none => (final, .ok (stage.recorder final).committed)

end Stage

end Jianpu.Capture
