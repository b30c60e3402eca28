import Jianpu.Proofs.Session.Release

/-! Recordings that are stopped while they are run. The loop is left waiting for a
detection that its source does not yield any more; when it goes on it writes
nothing, and what the session holds by then is left to it. -/

set_option autoImplicit false

namespace Jianpu

open Number (Amount)
open Capture (CaptureFault Recorder Signal Source Wait asidesAhead)

namespace Session

/-! The end of a run -/

theorem withRecorder_recorderOf (session : Session) (number : Nat) :
    session.withRecorder number (session.recorderOf number) = session := by
  have same : (session.withRecorder number (session.recorderOf number)).recordings =
      session.recordings := by
    apply List.ext_getElem?
    intro other
    rw [getElem?_withRecorder]
    split
    · rename_i here
      subst here
      cases found : session.recordings[number]? with
      | none => rfl
      | some recording => rw [recorderOf_eq found]; rfl
    · rfl
  exact congrArg (fun recordings => { session with recordings }) same

/-- The end of a run whose recording has been let go is only told. -/
theorem conclude_of_gone {session : Session} {number : Nat} (gone : session.held ≠ some number)
    (inactive : (session.recorderOf number).active = false)
    (aside : List Operation → Session → Session) (fault : Option CaptureFault) :
    session.conclude aside number fault =
      session.report number ((stage aside number).outcome session fault) := by
  have stopped : (stage aside number).stop session = session := by
    change session.withRecorder number (session.recorderOf number).stop = session
    rw [Recorder.stop_of_inactive inactive, withRecorder_recorderOf]
  obtain ⟨captureError, status, told⟩ :=
    report_eq session number ((stage aside number).outcome session fault)
  have still : (session.report number ((stage aside number).outcome session fault)).1.held ≠
      some number := by
    rw [told]
    exact gone
  rw [conclude, stopped]
  dsimp only
  rw [if_neg still]

/-! Stopped recordings -/

/-- A recording that has been stopped after its loop had been started. -/
structure IsStopped (number : Nat) (recording : Recording) (session : Session) : Prop
    extends IsLeft number recording session where
  orderly : IsOrderly session
  inactive : recording.recorder.active = false
  closed : recording.recorder.closings = 1

/-- What the asides in front of the next detection make of a session. -/
def resumed (depth : Nat) (signals : List (Signal (List Operation))) (session : Session) : Session :=
  (asidesAhead signals).foldl (fun session operations => asides depth operations session) session

namespace IsStopped

variable {number : Nat} {recording : Recording} {session : Session}
  (stopped : IsStopped number recording session)

include stopped

theorem asides (depth : Nat) (operations : List Operation) :
    IsStopped number recording (asides depth operations session) := by
  have kept := ((isKept_isLeft number recording).joined isInvariant_isOrderly).asides depth
    operations session (fun _ _ => trivial) ⟨stopped.orderly, stopped.toIsLeft⟩
  exact ⟨kept.2, kept.1, stopped.inactive, stopped.closed⟩

theorem resumed (depth : Nat) (signals : List (Signal (List Operation))) :
    IsStopped number recording (session.resumed depth signals) :=
  List.foldlRecOn _ _ stopped fun _ holds operations _ => holds.asides depth operations

theorem exhausted {source : Source (List Operation)} (ends : source.endsWhenClosed = true)
    (aside : List Operation → Session → Session) :
    (stage aside number).exhausted source session = true := by
  have closed : ((stage aside number).recorder session).closings = 1 :=
    (congrArg Recorder.closings (recorderOf_eq stopped.found)).trans stopped.closed
  simp [Capture.Stage.exhausted, ends, closed]

theorem await {source : Source (List Operation)} (ends : source.endsWhenClosed = true)
    (depth : Nat) (target : Int) (signals : List (Signal (List Operation))) :
    (stage (Session.asides depth) number).await source target signals session =
      (session.resumed depth signals, none) := by
  have closed := fun state (holds : IsStopped number recording state) =>
    holds.exhausted ends (Session.asides depth)
  exact Capture.Stage.await_of_closed closed
    (fun operations _ _ holds => holds.asides depth operations) target stopped

theorem conclude (aside : List Operation → Session → Session) (fault : Option CaptureFault) :
    session.conclude aside number fault =
      session.report number ((stage aside number).outcome session fault) := by
  have inactive : (session.recorderOf number).active = false := by
    rw [recorderOf_eq stopped.found]
    exact stopped.inactive
  exact conclude_of_gone stopped.gone inactive aside fault

end IsStopped

/-! Runs from where they wait -/

section

variable {session : Session} (occurs : Occurs session) {number : Nat} {recording : Recording}
  (found : session.recordings[number]? = some recording) (held : session.held = some number)
  {depth : Nat} {target : Int} {wait : Wait (List Operation) Session}
  (block : session.recordingBlock = some target)
  (reached : (stage (asides depth) number).Reaches recording.source
    ⟨target, recording.source.script, session.started number⟩ wait)

include occurs found held block reached

/-- A run ends in the same way from every place that it comes to. -/
theorem runCapture_of_reaches :
    perform depth .runCapture session =
      let last := (stage (asides depth) number).await recording.source wait.target wait.signals
        wait.state
      last.1.conclude (asides depth) number last.2 := by
  have recorder : (stage (asides depth) number).recorder (session.started number) =
      recording.recorder.start :=
    recorderOf_eq (started_recordings found)
  have unclosed : recording.recorder.start.closings = 0 := by
    rw [← (accounted_of_occurs occurs).closings_of_held held, recorderOf_eq found]
    rfl
  have goesOn : (stage (asides depth) number).exhausted recording.source
      (session.started number) = false := by
    simp [Capture.Stage.exhausted, recorder, unclosed]
  have next : (stage (asides depth) number).target? (session.started number) = some target := by
    rw [Capture.Stage.target?, recorder]
    exact block
  rw [perform_eq, performWith, runCapture_of_held held found, Capture.Stage.consume_eq goesOn next]
  dsimp only
  rw [reached.await_eq]

/-- A recording that is let go while it is run has been stopped. -/
theorem stopped_of_reaches (gone : wait.state.held ≠ some number) :
    ∃ left, IsStopped number left wait.state := by
  have inside := (List.getElem?_eq_some_iff.mp found).1
  have started := isInvariant_isOrderly.started session number held
    (isInvariant_isOrderly.occurs occurs)
  have runs := (isKept_hasBegun number).joined isInvariant_isOrderly
  obtain ⟨orderly, begun⟩ := runs.reaches trivial (started_recordings found)
    ⟨started, hasBegun_started inside⟩ reached
  have accounted := accounted_of_occurs (.awaiting depth occurs held found block reached)
  have ends := closings_of_begun orderly accounted begun
  obtain ⟨left, present, -⟩ := begun
  rw [recorderOf_eq present] at ends
  obtain ⟨-, inactive, closed⟩ := ends.resolve_left fun holding => gone holding.1
  exact ⟨left, ⟨gone, present⟩, orderly, inactive, closed⟩

end

/-- From when a recording has been stopped it stays as it is, with the tokens it has
committed so far. A run of it that is still going on then, and whose source yields
no detection any more, ends once the asides that stand in front have been
performed: it writes nothing, and changes nothing of the session that they leave
but what it is told of a failure. -/
theorem stopped_recording_writes_nothing {session : Session} (occurs : Occurs session)
    {number : Nat} {recording : Recording}
    (found : session.recordings[number]? = some recording) :
    (∀ (depth : Nat) (operation : Operation), operation.Stops session →
      (perform depth operation session).1.held ≠ some number) ∧
    (session.held ≠ some number → ∀ later, ComesTo (fun _ => True) session later →
      later.held ≠ some number ∧ later.recordings[number]? = some recording) ∧
    (session.held = some number →
      ∀ (depth : Nat) (target : Int) (wait : Wait (List Operation) Session),
      session.recordingBlock = some target →
      (stage (asides depth) number).Reaches recording.source
        ⟨target, recording.source.script, session.started number⟩ wait →
      wait.state.held ≠ some number →
      (recording.source.endsWhenClosed = true ∨ ∀ frame, .frame frame ∉ wait.signals) →
      let last := wait.state.resumed depth wait.signals
      last.held ≠ some number ∧
      last.recordings[number]? = wait.state.recordings[number]? ∧
      (∃ captureError status,
        (perform depth .runCapture session).1 = { last with captureError, status }) ∧
      (recording.source.endsWhenClosed = true → perform depth .runCapture session =
        (last, .ok (.tokens (wait.state.recorderOf number).committed)))) := by
  have orderly := isInvariant_isOrderly.occurs occurs
  refine ⟨?_, ?_, ?_⟩
  · intro depth operation stops
    rw [perform_eq]
    exact (teardown_performWith stops orderly.marked).gone (List.getElem?_eq_some_iff.mp found).1
  · intro gone later comes
    have left := IsLeft.comesTo ⟨gone, found⟩ orderly comes
    exact ⟨left.gone, left.found⟩
  · intro held depth target wait block reached gone silent last
    have runs := runCapture_of_reaches occurs found held block reached
    obtain ⟨left, stopped⟩ := stopped_of_reaches occurs found held block reached gone
    have still : IsStopped number left last := stopped.resumed depth wait.signals
    refine ⟨still.gone, still.found.trans stopped.found.symm, ?_, ?_⟩
    · -- A source that goes on when it is closed may still fail here, and that is told.
      have awaited : ∃ fault, (stage (asides depth) number).await recording.source wait.target
          wait.signals wait.state = (last, fault) := by
        rcases silent with ends | silent
        · exact ⟨none, stopped.await ends depth wait.target wait.signals⟩
        · exact Capture.Stage.await_without_frames silent wait.target wait.state
      obtain ⟨fault, awaited⟩ := awaited
      rw [runs, awaited]
      dsimp only
      rw [still.conclude]
      exact report_eq last number _
    · intro ends
      rw [runs, stopped.await ends]
      dsimp only
      rw [still.conclude, recorderOf_eq stopped.found, ← recorderOf_eq still.found]
      rfl

/-- While the recording awaits its first detection another one is begun in its place. -/
def takenOver : Source (List Operation) :=
  { signals := [.aside [.stopCapture, .startCapture 0 { signals := [] } false],
      .frame ⟨.real 0, .real 440, .real 1⟩] }

/-- The recording that has been begun in the meantime is held when the run returns. -/
theorem stopped_recording_writes_nothing_when_taken_over :
    let session := (perform 0 (.startCapture 0 takenOver false) (ofDocument {} false)).1
    let returned := perform 1 .runCapture session
    Occurs session ∧ session.held = some 0 ∧ returned.1.held = some 1 ∧
      returned.2 = .ok (.tokens []) := by
  intro session returned
  have occurs : Occurs session := .performed 0 _ (.opened {} false)
  have found : session.recordings[0]? = some { source := takenOver } := rfl
  have reached : (stage (asides 1) 0).Reaches takenOver
      ⟨0, takenOver.script, session.started 0⟩ _ := .single .aside
  obtain ⟨-, -, quiet⟩ := stopped_recording_writes_nothing occurs found
  obtain ⟨-, -, -, returns⟩ := quiet rfl 1 0 _ rfl reached (by decide) (.inl rfl)
  have told := returns rfl
  refine ⟨occurs, rfl, ?_, ?_⟩
  · exact congrArg (fun outcome => outcome.1.held) told
  · exact congrArg Prod.snd told

end Session

end Jianpu
