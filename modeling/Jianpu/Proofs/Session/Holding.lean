import Jianpu.Proofs.Session.Sounding

/-! The recordings of a session and the one that it holds. An operation that is over
at once leaves the held recording alone, lets it go, or lets it go and begins
another; a run changes no recording but its own. -/

set_option autoImplicit false

namespace Jianpu

open Number (Amount)
open Capture (CaptureFault Recorder Source)

/-- The operations that stop the recording that is held. To start a playback does so
where there is a scheduler. -/
def Operation.Stops (session : Session) : Operation → Prop
  | .loadDocument _ | .removeBlock _ | .startCapture _ _ _ | .stopCapture => True
  | .startPlayback => session.hasScheduler = true
  | _ => False

namespace Session

/-! Recordings by their number -/

theorem getElem?_withRecorder (session : Session) (number other : Nat) (recorder : Recorder) :
    (session.withRecorder number recorder).recordings[other]? =
      if number = other then
        session.recordings[other]?.map fun recording => { recording with recorder }
      else session.recordings[other]? := by
  rw [withRecorder, List.getElem?_modify]
  split <;> simp

theorem length_withRecorder (session : Session) (number : Nat) (recorder : Recorder) :
    (session.withRecorder number recorder).recordings.length = session.recordings.length := by
  simp [withRecorder]

theorem recorderOf_eq {session : Session} {number : Nat} {recording : Recording}
    (found : session.recordings[number]? = some recording) :
    session.recorderOf number = recording.recorder := by
  rw [recorderOf, found]
  rfl

theorem getElem?_letGo (session : Session) (other : Nat) :
    session.letGo[other]? =
      if session.held = some other then
        session.recordings[other]?.map fun recording =>
          { recording with recorder := recording.recorder.stop }
      else session.recordings[other]? := by
  cases held : session.held with
  | none => simp [letGo, held]
  | some number =>
      simp only [letGo, held, Option.elim_some, getElem?_withRecorder, Option.some.injEq]
      split
      · rename_i same
        subst same
        cases found : session.recordings[number]? with
        | none => rfl
        | some recording => rw [recorderOf_eq found]; rfl
      · rfl

theorem length_letGo (session : Session) : session.letGo.length = session.recordings.length := by
  cases held : session.held <;> simp [letGo, held, length_withRecorder]

theorem letGo_of_idle {session : Session} (idle : session.held = none) :
    session.letGo = session.recordings := by
  simp [letGo, idle]

/-! Operations that are over at once -/

/-- What becomes of the recordings in an operation that stops the one that is held:
it is let go, and another one may be begun. -/
inductive Teardown (operation : Operation) (before after : Session) : Prop where
  | letGo :
      after.held = none → after.recordings = before.letGo → Teardown operation before after
  | begun (index : Int) (source : Source (List Operation)) (playReference : Bool) :
      operation = .startCapture index source playReference →
      after.held = some before.recordings.length →
      after.recordings = before.letGo ++ [.ofSource before.logarithm source] →
      Teardown operation before after

theorem Teardown.recordings_left {operation : Operation} {before after : Session} {number : Nat}
    (teardown : Teardown operation before after) (inside : number < before.recordings.length) :
    after.recordings[number]? = before.letGo[number]? := by
  cases teardown with
  | letGo _ recordings => rw [recordings]
  | begun index source playReference _ _ recordings =>
      rw [recordings, List.getElem?_append_left (by rw [length_letGo]; exact inside)]

/-- What becomes of the recordings in an operation that is over at once. -/
inductive Turnover (operation : Operation) (before after : Session) : Prop where
  | goesOn :
      after.held = before.held → after.recordings = before.recordings →
      Turnover operation before after
  | ended : Teardown operation before after → Turnover operation before after

theorem Teardown.gone {operation : Operation} {before after : Session} {number : Nat}
    (teardown : Teardown operation before after) (inside : number < before.recordings.length) :
    after.held ≠ some number := by
  intro held
  cases teardown with
  | letGo idle => cases idle.symm.trans held
  | begun index source playReference _ newest =>
      have same := Option.some.inj (newest.symm.trans held)
      exact Nat.ne_of_gt inside same

section

variable {session : Session}

theorem letGo_stopCapture (session : Session) :
    session.stopCapture.held = none ∧ session.stopCapture.recordings = session.letGo := by
  rw [stopCapture_eq]
  exact ⟨rfl, rfl⟩

theorem letGo_unless_recording (marked : session.recordingBlock.isSome = session.held.isSome) :
    (if session.recordingBlock.isSome then session.stopCapture else session).held = none ∧
      (if session.recordingBlock.isSome then session.stopCapture else session).recordings =
        session.letGo := by
  split
  · exact letGo_stopCapture session
  · rename_i unmarked
    rw [Bool.not_eq_true] at unmarked
    rw [unmarked] at marked
    have idle : session.held = none := by simpa using marked.symm
    exact ⟨idle, (letGo_of_idle idle).symm⟩

theorem begun_beginCapture (session : Session) (index : Int) (source : Source (List Operation))
    (playReference : Bool) :
    (session.beginCapture index source playReference).held = some session.recordings.length ∧
      (session.beginCapture index source playReference).recordings =
        session.recordings ++ [.ofSource session.logarithm source] := by
  simp only [beginCapture, offered]
  rw [stopCadence_eq, stopPlayback_eq]
  split <;> exact ⟨rfl, rfl⟩

theorem teardown_startCapture (marked : session.recordingBlock.isSome = session.held.isSome)
    (index : Int) (source : Source (List Operation)) (playReference : Bool) :
    Teardown (.startCapture index source playReference) session
      (session.startCapture index source playReference).1 := by
  have silent := letGo_unless_recording marked
  have logarithm := logarithm_unless_recording session
  unfold startCapture
  dsimp only
  generalize (if session.recordingBlock.isSome then session.stopCapture else session) = quiet
    at silent logarithm
  obtain ⟨idle, recordings⟩ := silent
  split
  · exact .letGo idle recordings
  · split
    · exact .letGo idle recordings
    · split
      · obtain ⟨held, added⟩ := begun_beginCapture quiet index source playReference
        rw [recordings] at held added
        rw [logarithm] at added
        exact .begun index source playReference rfl (by rw [held, length_letGo]) added
      · exact .letGo idle recordings

theorem teardown_startPlayback (hasScheduler : session.hasScheduler = true) :
    Teardown .startPlayback session session.startPlayback.1 := by
  have silent : session.stopCapture.stopPlayback.held = none ∧
      session.stopCapture.stopPlayback.recordings = session.letGo := by
    rw [stopPlayback_eq]
    exact letGo_stopCapture session
  rw [startPlayback, hasScheduler]
  generalize session.stopCapture.stopPlayback = quiet at silent
  obtain ⟨idle, recordings⟩ := silent
  dsimp only [Bool.not_true]
  split
  · contradiction
  · split
    · exact .letGo idle recordings
    · split <;> exact .letGo idle recordings

theorem teardown_performWith {aside : List Operation → Session → Session} {operation : Operation}
    (stops : operation.Stops session)
    (marked : session.recordingBlock.isSome = session.held.isSome) :
    Teardown operation session (performWith aside operation session).1 := by
  cases operation with
  | loadDocument document =>
      obtain ⟨idle, recordings⟩ := letGo_stopCapture session
      exact .letGo idle recordings
  | removeBlock index =>
      obtain ⟨idle, recordings⟩ := letGo_unless_recording marked
      simp only [performWith, removeBlock]
      generalize (if session.recordingBlock.isSome then session.stopCapture else session) = silent
        at idle recordings
      cases silent.document.removeBlock index <;> exact .letGo idle recordings
  | startCapture index source playReference =>
      exact teardown_startCapture marked index source playReference
  | stopCapture =>
      obtain ⟨idle, recordings⟩ := letGo_stopCapture session
      exact .letGo idle recordings
  | startPlayback => exact teardown_startPlayback stops
  | updateBlock | addBlock | moveBlock | setKey | setSettings | drawings | importScore | runCapture
  | stopPlayback => exact stops.elim

theorem turnover_edited (operation : Operation) (session : Session)
    (edit : Except EditError Document) :
    Turnover operation session (session.edited edit).1 := by
  cases edit <;> exact .goesOn rfl rfl

theorem turnover_performWith {aside : List Operation → Session → Session} {operation : Operation}
    (instant : operation.IsInstant) (marked : session.recordingBlock.isSome = session.held.isSome) :
    Turnover operation session (performWith aside operation session).1 := by
  cases operation with
  | loadDocument | removeBlock | startCapture | stopCapture =>
      exact .ended (teardown_performWith trivial marked)
  | startPlayback =>
      cases hasScheduler : session.hasScheduler with
      | true => exact .ended (teardown_performWith hasScheduler marked)
      | false =>
          simp only [performWith, startPlayback, hasScheduler]
          exact .goesOn rfl rfl
  | updateBlock | addBlock | moveBlock => exact turnover_edited _ session _
  | setKey index =>
      simp only [performWith, setKey]
      split <;> exact .goesOn rfl rfl
  | setSettings settings => exact .goesOn rfl rfl
  | drawings =>
      simp only [performWith]
      split <;> exact .goesOn rfl rfl
  | importScore score forceKey =>
      simp only [performWith, importScore]
      split <;> exact .goesOn rfl rfl
  | runCapture => exact instant.elim
  | stopPlayback =>
      simp only [performWith, stopPlayback_eq]
      exact .goesOn rfl rfl

end

namespace Turnover

variable {operation : Operation} {before after : Session} {number : Nat} {recording : Recording}
  (turnover : Turnover operation before after)

include turnover

/-- A recording that is not held is left as it is. -/
theorem of_gone (gone : before.held ≠ some number)
    (found : before.recordings[number]? = some recording) :
    after.held ≠ some number ∧ after.recordings[number]? = some recording := by
  have left : before.letGo[number]? = some recording := by
    rw [getElem?_letGo, if_neg gone, found]
  have inside := (List.getElem?_eq_some_iff.mp found).1
  cases turnover with
  | goesOn held recordings =>
      rw [held, recordings]
      exact ⟨gone, found⟩
  | ended teardown => exact ⟨teardown.gone inside, (teardown.recordings_left inside).trans left⟩

/-- The held recording goes on as it is, or is stopped and let go. -/
theorem of_held (holding : before.held = some number)
    (found : before.recordings[number]? = some recording) :
    after.held = some number ∧ after.recordings[number]? = some recording ∨
      after.held ≠ some number ∧ after.recordings[number]? =
        some { recording with recorder := recording.recorder.stop } := by
  have stopped : before.letGo[number]? =
      some { recording with recorder := recording.recorder.stop } := by
    rw [getElem?_letGo, if_pos holding, found]
    rfl
  have inside := (List.getElem?_eq_some_iff.mp found).1
  cases turnover with
  | goesOn held recordings =>
      rw [held, recordings]
      exact .inl ⟨holding, found⟩
  | ended teardown =>
      exact .inr ⟨teardown.gone inside, (teardown.recordings_left inside).trans stopped⟩

/-- A recording that has been begun is new, and is held. -/
theorem of_new (fresh : before.recordings.length ≤ number)
    (found : after.recordings[number]? = some recording) :
    after.held = some number ∧ ∃ index source playReference,
      operation = .startCapture index source playReference ∧
        recording = .ofSource before.logarithm source := by
  cases turnover with
  | goesOn _ recordings =>
      rw [recordings, List.getElem?_eq_none fresh] at found
      cases found
  | ended teardown =>
      cases teardown with
      | letGo _ recordings =>
          rw [recordings, List.getElem?_eq_none (by rw [length_letGo]; exact fresh)] at found
          cases found
      | begun index source playReference asked held recordings =>
          rw [recordings, List.getElem?_append_right (by rw [length_letGo]; exact fresh)] at found
          obtain ⟨first, rfl⟩ := List.getElem?_eq_some_iff.mp found
          have last : number = before.recordings.length := by
            rw [List.length_singleton, length_letGo] at first
            omega
          subst last
          refine ⟨held, index, source, playReference, asked, ?_⟩
          simp [length_letGo]

end Turnover

/-! Runs -/

theorem recordings_withRecorder_twice (session : Session) (number : Nat) (first second : Recorder) :
    ((session.withRecorder number first).withRecorder number second).recordings =
      (session.withRecorder number second).recordings := by
  simp only [withRecorder, List.modify_modify_eq]
  rfl

theorem recordings_appendCaptured (session : Session) (index : Int) (token : String) :
    (session.appendCaptured index token).1.held = session.held ∧
      (session.appendCaptured index token).1.recordings = session.recordings := by
  unfold appendCaptured
  split
  · exact ⟨rfl, rfl⟩
  · split <;> exact ⟨rfl, rfl⟩

/-- A detection is heard by the recording of the run, and by no other. -/
theorem recordings_deliver (aside : List Operation → Session → Session) (number : Nat)
    (target : Int) (frame : Capture.Frame Amount) (session : Session) :
    ((stage aside number).deliver target frame session).1.held = session.held ∧
      ∃ recorder : Recorder,
        recorder.active = (session.recorderOf number).active ∧
        recorder.closings = (session.recorderOf number).closings ∧
        ((stage aside number).deliver target frame session).1.recordings =
          (session.withRecorder number recorder).recordings := by
  rw [deliver_eq]
  dsimp only
  generalize hearing : (session.recorderOf number).hear session.cell.key frame = heard
  have active : heard.recorder.active = (session.recorderOf number).active := by
    rw [← hearing]
    rfl
  have closings : heard.recorder.closings = (session.recorderOf number).closings := by
    rw [← hearing]
    rfl
  split
  · exact ⟨rfl, heard.recorder, active, closings, rfl⟩
  · exact ⟨rfl, heard.recorder, active, closings, rfl⟩
  · rename_i token _
    let writing : Recorder :=
      { heard.recorder with committed := heard.recorder.committed ++ [token] }
    obtain ⟨held, recordings⟩ := recordings_appendCaptured
      ((session.shown number heard).withRecorder number writing) target token
    refine ⟨held, writing, active, closings, recordings.trans ?_⟩
    exact recordings_withRecorder_twice session number heard.recorder writing

theorem recordings_conclude (aside : List Operation → Session → Session) (number : Nat)
    (fault : Option CaptureFault) (session : Session) :
    (session.conclude aside number fault).1.held =
        (if session.held = some number then none else session.held) ∧
      (session.conclude aside number fault).1.recordings =
        (session.withRecorder number (session.recorderOf number).stop).recordings := by
  unfold conclude
  dsimp only
  generalize (stage aside number).outcome _ fault = outcome
  obtain ⟨captureError, status, told⟩ :=
    report_eq ((stage aside number).stop session) number outcome
  rw [told]
  split
  · rename_i holding
    exact ⟨(if_pos holding).symm, rfl⟩
  · rename_i gone
    exact ⟨(if_neg gone).symm, rfl⟩

end Session

end Jianpu
