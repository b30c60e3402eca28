import Jianpu.Timeline

set_option autoImplicit false

/-!
Playback of tones through a scheduler. A run that is active schedules nothing again, and one that is
not has nothing to cancel, so starting and stopping twice does what doing it once does.
-/
namespace Jianpu

/-- What a scheduler is asked to do. -/
inductive SchedulerCall (α : Type) where
  /-- To sound a tone at its time. -/
  | play (tone : Tone α)
  /-- To silence everything that sounds or waits. -/
  | cancelAll

/-- A list of tones that is being played or not. -/
structure Playback (α : Type) where
  tones : List (Tone α)
  active : Bool := false

namespace Playback

variable {α : Type}

/-- Starts a run, with the calls it makes. -/
def start (playback : Playback α) : Playback α × List (SchedulerCall α) :=
  if playback.active then (playback, [])
  else ({ playback with active := true }, playback.tones.map .play)

/-- Stops a run, with the calls it makes. -/
def stop (playback : Playback α) : Playback α × List (SchedulerCall α) :=
  if playback.active then ({ playback with active := false }, [.cancelAll]) else (playback, [])

end Playback

end Jianpu
