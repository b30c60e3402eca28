import Jianpu.Capture.Frame
import Jianpu.Number.Measure

set_option autoImplicit false

/-!
The filter that turns detections into notes. A pitch counts once it has been heard without a break for
longer than the stability window; it does not count again while it goes on sounding, nor before the
refractory period since it last counted is over. So a sustained tone gives one note.
-/
namespace Jianpu.Capture

open Number (Measure Fault)

/-- The bounds of the filter: detections have to be clearer than the least clarity and strictly between
the two frequencies; the window and the period are in seconds. -/
structure Filter (α : Type) where
  minClarity : α
  minFrequency : α
  maxFrequency : α
  stabilityWindow : α
  refractoryPeriod : α

namespace Filter

variable {α : Type} [Measure α]

/-- The bounds that live capture uses. -/
def standard : Filter α where
  minClarity := Measure.decimal 8 1
  minFrequency := Measure.decimal 60 0
  maxFrequency := Measure.decimal 2000 0
  stabilityWindow := Measure.decimal 3 1
  refractoryPeriod := Measure.decimal 5 1

/-- A pitch that waits to count, and when it was first heard. -/
structure Candidate (α : Type) where
  pitch : Int
  since : α

/-- A pitch that has counted, and the time before which it does not count again. -/
structure Commitment (α : Type) where
  pitch : Int
  deadline : α

/-- What the filter remembers. -/
structure State (α : Type) where
  candidate : Option (Candidate α) := none
  /-- The pitch that has counted and is still sounding. -/
  held : Option Int := none
  /-- The last pitch that counted. -/
  last : Option (Commitment α) := none

/-- True of a detection clear enough and of a frequency within the bounds. -/
def credible (filter : Filter α) (frame : Frame α) : Bool :=
  Measure.less filter.minClarity frame.clarity
    && Measure.less filter.minFrequency frame.frequency
    && Measure.less frame.frequency filter.maxFrequency

/-- True when the pitch is the last that counted and its refractory period is not over. -/
def refused (state : State α) (pitch : Int) (time : α) : Bool :=
  match state.last with
  | some last => pitch == last.pitch && Measure.less time last.deadline
  | none => false

/-- The state after a pitch counts that was first heard long enough ago. Where the end of its refractory
period cannot be told, the deadline before it stays. -/
def committed (filter : Filter α) (state : State α) (pitch : Int) (time : α) :
    State α × Except Fault Bool :=
  let before := (state.last.map (·.deadline)).getD (Measure.decimal 0 0)
  match Measure.plus time filter.refractoryPeriod with
  | .ok deadline => ({ held := some pitch, last := some ⟨pitch, deadline⟩ }, .ok true)
  | .error fault => ({ held := some pitch, last := some ⟨pitch, before⟩ }, .error fault)

/-- Hears a pitch at a time: the state after it, and whether the pitch counts. -/
def hearPitch (filter : Filter α) (state : State α) (pitch : Int) (time : α) :
    State α × Except Fault Bool :=
  if state.held = some pitch then (state, .ok false)
  else
    let released := { state with held := none }
    if refused released pitch time then ({ released with candidate := none }, .ok false)
    else
      match released.candidate with
      | none => ({ released with candidate := some ⟨pitch, time⟩ }, .ok false)
      | some candidate =>
        if candidate.pitch ≠ pitch then
          ({ released with candidate := some ⟨pitch, time⟩ }, .ok false)
        else
          match Measure.minus time candidate.since with
          | .error fault => (released, .error fault)
          | .ok elapsed =>
            if Measure.less filter.stabilityWindow elapsed then filter.committed released pitch time
            else (released, .ok false)

/-- The state after a detection that is not credible. -/
def interrupted (state : State α) : State α :=
  { state with candidate := none, held := none }

/-- Hears a detection, whose frequency is rounded to a pitch: the state after it, and the pitch if one
counts. -/
def hear (filter : Filter α) (round : α → Except Fault Int) (state : State α) (frame : Frame α) :
    State α × Except Fault (Option Int) :=
  if filter.credible frame then
    match round frame.frequency with
    | .error fault => (state, .error fault)
    | .ok pitch =>
      let (after, counts) := filter.hearPitch state pitch frame.time
      (after, counts.map fun counts => if counts then some pitch else none)
  else (interrupted state, .ok none)

end Filter

end Jianpu.Capture
