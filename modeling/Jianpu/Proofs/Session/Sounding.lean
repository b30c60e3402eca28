import Jianpu.Proofs.Session.Occurrence

/-! At most one capture or playback, and nothing that sounds on its own. The
tones in the scheduler are those of the one playback that has been started and
not been stopped, be it of the document or the chords that tune a singer in. -/

set_option autoImplicit false

namespace Jianpu

open Number (Amount)
open Capture (CaptureFault Recorder Source)

/-- What is left in a scheduler after calls: the tones that were asked for since
everything was last silenced. -/
def sounding {α : Type} (calls : List (SchedulerCall α)) : List (Tone α) :=
  calls.foldl (fun tones call =>
    match call with
    | .play tone => tones ++ [tone]
    | .cancelAll => []) []

theorem sounding_append_play {α : Type} (calls : List (SchedulerCall α)) (tones : List (Tone α)) :
    sounding (calls ++ tones.map .play) = sounding calls ++ tones := by
  induction tones generalizing calls with
  | nil => simp
  | cons tone tones ih =>
      have one : sounding (calls ++ [.play tone]) = sounding calls ++ [tone] := by
        simp [sounding]
      rw [List.map_cons, List.append_cons, ih, one, List.append_assoc, List.singleton_append]

theorem sounding_append_cancelAll {α : Type} (calls : List (SchedulerCall α)) :
    sounding (calls ++ [.cancelAll]) = [] := by
  simp [sounding]

theorem Capture.Recorder.active_stop (recorder : Recorder) : recorder.stop.active = false := by
  unfold stop
  split
  · rfl
  · rename_i inactive
    simpa using inactive

namespace Session

/-- The playbacks that a session holds: that of the document and the cadence. -/
def playbacks (session : Session) : List (Playback Float) :=
  session.playback.toList ++ session.cadence.toList

/-- The playbacks that have been started and not been stopped. -/
def activePlaybacks (session : Session) : List (Playback Float) :=
  session.playbacks.filter (·.active)

/-- True while a capture is held or the loop of one is to go on. -/
def IsCapturing (session : Session) : Prop :=
  session.held.isSome = true ∨ ∃ number, (session.recorderOf number).active = true

/-- What holds of the audio of a session at all times. -/
structure IsOrderly (session : Session) : Prop where
  marked : session.recordingBlock.isSome = session.held.isSome
  loops : ∀ number, (session.recorderOf number).active = true → session.held = some number
  alone : session.playback.isSome = true → session.held = none ∧ session.cadence = none
  playing : ∀ playback ∈ session.playbacks, playback.active = true
  heard : sounding session.journal.calls = session.playbacks.flatMap (·.tones)

/-! Recordings -/

theorem recorderOf_withRecorder (session : Session) (number other : Nat) (recorder : Recorder) :
    (session.withRecorder number recorder).recorderOf other =
      if number = other ∧ other < session.recordings.length then recorder
      else session.recorderOf other := by
  simp only [recorderOf, withRecorder, List.getElem?_modify]
  by_cases same : number = other
  · subst same
    cases found : session.recordings[number]? with
    | none =>
        have beyond := List.getElem?_eq_none_iff.mp found
        simp [Nat.not_lt.mpr beyond]
    | some recording =>
        have inside := (List.getElem?_eq_some_iff.mp found).1
        simp [inside]
  · simp [same]

theorem active_withRecorder {session : Session} {number : Nat} {recorder : Recorder}
    (same : recorder.active = (session.recorderOf number).active) (other : Nat) :
    ((session.withRecorder number recorder).recorderOf other).active =
      (session.recorderOf other).active := by
  rw [recorderOf_withRecorder]
  split
  · rename_i here
    rw [same, here.1]
  · rfl

theorem active_stopped {session : Session} {number other : Nat}
    (active : ((session.withRecorder number (session.recorderOf number).stop).recorderOf
      other).active = true) :
    number ≠ other ∧ (session.recorderOf other).active = true := by
  rw [recorderOf_withRecorder] at active
  split at active
  · rw [Recorder.active_stop] at active
    cases active
  · rename_i elsewhere
    refine ⟨?_, active⟩
    rintro rfl
    have missing : session.recordings[number]? = none :=
      List.getElem?_eq_none (Nat.le_of_not_lt fun inside => elsewhere ⟨rfl, inside⟩)
    simp [recorderOf, missing] at active

theorem active_append {session : Session} {logarithm : Pitch.Logarithm}
    {source : Source (List Operation)} {number : Nat}
    (active : (({ session with
      recordings := session.recordings ++ [.ofSource logarithm source] } :
        Session).recorderOf number).active = true) :
    (session.recorderOf number).active = true := by
  rcases Nat.lt_trichotomy number session.recordings.length with inside | same | beyond
  · simpa [recorderOf, List.getElem?_append_left inside] using active
  · subst same
    simp [recorderOf, Recording.ofSource] at active
  · have missing : (session.recordings ++ [Recording.ofSource logarithm source])[number]? =
        none := by
      rw [List.getElem?_eq_none]
      simpa using Nat.succ_le_of_lt beyond
    simp [recorderOf, missing] at active

/-! What leaves the audio alone -/

/-- Two sessions with the same audio. -/
structure SameAudio (before after : Session) : Prop where
  block : after.recordingBlock = before.recordingBlock
  held : after.held = before.held
  playback : after.playback = before.playback
  cadence : after.cadence = before.cadence
  calls : after.journal.calls = before.journal.calls
  loops : ∀ number, (after.recorderOf number).active = (before.recorderOf number).active

theorem SameAudio.orderly {before after : Session} (same : SameAudio before after)
    (orderly : IsOrderly before) : IsOrderly after := by
  have playbacks : after.playbacks = before.playbacks := by
    rw [Session.playbacks, same.playback, same.cadence]
    rfl
  constructor
  · rw [same.block, same.held]
    exact orderly.marked
  · intro number active
    rw [same.held]
    exact orderly.loops number (same.loops number ▸ active)
  · rw [same.playback, same.held, same.cadence]
    exact orderly.alone
  · rw [playbacks]
    exact orderly.playing
  · rw [same.calls, playbacks]
    exact orderly.heard

theorem sameAudio_adopt (session : Session) (document : Document) :
    SameAudio session (session.adopt document) :=
  ⟨rfl, rfl, rfl, rfl, rfl, fun _ => rfl⟩

theorem sameAudio_edited (session : Session) (edit : Except EditError Document) :
    SameAudio session (session.edited edit).1 := by
  cases edit with
  | ok document => exact sameAudio_adopt session document
  | error => exact ⟨rfl, rfl, rfl, rfl, rfl, fun _ => rfl⟩

theorem sameAudio_withRecorder {session : Session} {number : Nat} {recorder : Recorder}
    (same : recorder.active = (session.recorderOf number).active) :
    SameAudio session (session.withRecorder number recorder) :=
  ⟨rfl, rfl, rfl, rfl, rfl, active_withRecorder same⟩

theorem SameAudio.trans {first second third : Session} (one : SameAudio first second)
    (two : SameAudio second third) : SameAudio first third where
  block := two.block.trans one.block
  held := two.held.trans one.held
  playback := two.playback.trans one.playback
  cadence := two.cadence.trans one.cadence
  calls := two.calls.trans one.calls
  loops number := (two.loops number).trans (one.loops number)

theorem sameAudio_shown (session : Session) (number : Nat) (frame : Capture.Frame Amount) :
    SameAudio session
      (session.shown number ((session.recorderOf number).hear session.cell.key frame)) := by
  have kept : ((session.recorderOf number).hear session.cell.key frame).recorder.active =
      (session.recorderOf number).active := rfl
  have written := sameAudio_withRecorder kept
  exact ⟨rfl, rfl, rfl, rfl, rfl, written.loops⟩

theorem sameAudio_appendCaptured (session : Session) (index : Int) (token : String) :
    SameAudio session (session.appendCaptured index token).1 := by
  unfold appendCaptured
  split
  · exact ⟨rfl, rfl, rfl, rfl, rfl, fun _ => rfl⟩
  · split
    · exact sameAudio_adopt session _
    · exact ⟨rfl, rfl, rfl, rfl, rfl, fun _ => rfl⟩

theorem sameAudio_deliver (aside : List Operation → Session → Session) (number : Nat)
    (target : Int) (frame : Capture.Frame Amount) (session : Session) :
    SameAudio session ((stage aside number).deliver target frame session).1 := by
  have heard := sameAudio_shown session number frame
  rw [deliver_eq]
  dsimp only
  split
  · exact heard
  · exact heard
  · refine (heard.trans (sameAudio_withRecorder ?_)).trans (sameAudio_appendCaptured _ _ _)
    rw [heard.loops]
    rfl

/-! Stopping -/

/-- The calls that silence a playback, if there is one. -/
def silencing (playback : Option (Playback Float)) : List (SchedulerCall Float) :=
  playback.elim [] fun playback => playback.stop.2

/-- The recordings after the one that is held has been stopped. -/
def letGo (session : Session) : List Recording :=
  session.held.elim session.recordings fun number =>
    (session.withRecorder number (session.recorderOf number).stop).recordings

theorem stopCadence_eq (session : Session) :
    session.stopCadence = { session.called (silencing session.cadence) with cadence := none } := by
  obtain ⟨document, sections, cell, status, captureError, recordings, held, playback, cadence,
    hasScheduler, journal⟩ := session
  cases cadence with
  | none => simp [stopCadence, silencing, called]
  | some cadence => rfl

theorem stopPlayback_eq (session : Session) :
    session.stopPlayback =
      { session.called (silencing session.playback) with playback := none } := by
  obtain ⟨document, sections, cell, status, captureError, recordings, held, playback, cadence,
    hasScheduler, journal⟩ := session
  cases playback with
  | none => simp [stopPlayback, silencing, called]
  | some playback => rfl

theorem stopCapture_eq (session : Session) :
    session.stopCapture =
      { session.release.called (silencing session.cadence) with
        cadence := none
        recordings := session.letGo } := by
  rw [stopCapture, stopCadence_eq]
  cases held : session.held with
  | none => simp only [letGo, held, Option.elim_none]; rfl
  | some number => simp only [letGo, held, Option.elim_some]; rfl

theorem logarithm_unless_recording (session : Session) :
    (if session.recordingBlock.isSome then session.stopCapture else session).logarithm =
      session.logarithm := by
  split
  · rw [stopCapture_eq]
    rfl
  · rfl

theorem active_stopCapture {session : Session} (orderly : IsOrderly session) (number : Nat) :
    (session.stopCapture.recorderOf number).active = false := by
  cases active : (session.stopCapture.recorderOf number).active with
  | false => rfl
  | true =>
      rw [stopCapture_eq, recorderOf] at active
      cases held : session.held with
      | none =>
          have still : (session.recorderOf number).active = true := by
            simp only [letGo, held, Option.elim_none] at active
            exact active
          rw [orderly.loops number still] at held
          cases held
      | some current =>
          have stopped : ((session.withRecorder current
              (session.recorderOf current).stop).recorderOf number).active = true := by
            simp only [letGo, held, Option.elim_some] at active
            exact active
          obtain ⟨other, still⟩ := active_stopped stopped
          rw [orderly.loops number still] at held
          exact absurd (Option.some.inj held).symm other

section Silencing

variable {session : Session} (orderly : IsOrderly session)

include orderly

theorem heard_without_cadence :
    sounding (session.journal.calls ++ silencing session.cadence) =
      session.playback.toList.flatMap (·.tones) := by
  have heard := orderly.heard
  cases cadence : session.cadence with
  | none =>
      simp only [playbacks, cadence, Option.toList_none, List.append_nil] at heard
      simpa only [silencing, Option.elim_none, List.append_nil] using heard
  | some current =>
      have active : current.active = true :=
        orderly.playing current (by simp [playbacks, cadence])
      have silent : session.playback = none := by
        cases playback : session.playback with
        | none => rfl
        | some other =>
            have alone := (orderly.alone (by simp [playback])).2
            rw [cadence] at alone
            cases alone
      simp [silencing, Playback.stop, active, sounding_append_cancelAll, silent]

theorem heard_without_playback :
    sounding (session.journal.calls ++ silencing session.playback) =
      session.cadence.toList.flatMap (·.tones) := by
  have heard := orderly.heard
  cases playback : session.playback with
  | none =>
      simp only [playbacks, playback, Option.toList_none, List.nil_append] at heard
      simpa only [silencing, Option.elim_none, List.append_nil] using heard
  | some current =>
      have active : current.active = true :=
        orderly.playing current (by simp [playbacks, playback])
      have alone := (orderly.alone (by simp [playback])).2
      simp [silencing, Playback.stop, active, sounding_append_cancelAll, alone]

theorem orderly_stopCapture : IsOrderly session.stopCapture := by
  have inactive := active_stopCapture orderly
  have heard := heard_without_cadence orderly
  constructor
  · rw [stopCapture_eq]
    rfl
  · intro number active
    rw [inactive number] at active
    cases active
  · rw [stopCapture_eq]
    exact fun _ => ⟨rfl, rfl⟩
  · rw [stopCapture_eq]
    intro playback member
    refine orderly.playing playback (List.mem_append_left _ ?_)
    simpa [playbacks, called, release] using member
  · rw [stopCapture_eq]
    simpa [playbacks, called, release] using heard

theorem orderly_stopPlayback : IsOrderly session.stopPlayback := by
  have heard := heard_without_playback orderly
  rw [stopPlayback_eq]
  constructor
  · exact orderly.marked
  · exact orderly.loops
  · simp
  · intro playback member
    refine orderly.playing playback (List.mem_append_right _ ?_)
    simpa [playbacks, called, release] using member
  · simpa [playbacks, called, release] using heard

theorem orderly_stopCadence : IsOrderly session.stopCadence := by
  have heard := heard_without_cadence orderly
  rw [stopCadence_eq]
  constructor
  · exact orderly.marked
  · exact orderly.loops
  · exact fun some => ⟨(orderly.alone some).1, rfl⟩
  · intro playback member
    refine orderly.playing playback (List.mem_append_left _ ?_)
    simpa [playbacks, called, release] using member
  · simpa [playbacks, called, release] using heard

/-- A session in which recording has ended, if it was going on, holds no capture. -/
theorem orderly_unless_recording :
    IsOrderly (if session.recordingBlock.isSome then session.stopCapture else session) ∧
      (if session.recordingBlock.isSome then session.stopCapture else session).held = none := by
  split
  · refine ⟨orderly_stopCapture orderly, ?_⟩
    rw [stopCapture_eq]
    rfl
  · rename_i unmarked
    refine ⟨orderly, ?_⟩
    have marked := orderly.marked
    rw [Bool.not_eq_true] at unmarked
    rw [unmarked] at marked
    simpa using marked.symm

end Silencing

/-! Starting -/

theorem orderly_startCadence {session : Session} (orderly : IsOrderly session)
    (noPlayback : session.playback = none) (noCadence : session.cadence = none) :
    IsOrderly session.startCadence := by
  have silent : sounding session.journal.calls = [] := by
    rw [orderly.heard, playbacks, noPlayback, noCadence]
    rfl
  constructor
  · exact orderly.marked
  · exact orderly.loops
  · simp [startCadence, Playback.start, called, noPlayback]
  · simp [startCadence, Playback.start, called, playbacks, noPlayback]
  · simp [startCadence, Playback.start, called, playbacks, noPlayback, sounding_append_play,
      silent]

theorem orderly_beginCapture {session : Session} (orderly : IsOrderly session)
    (idle : session.held = none) (index : Int) (source : Source (List Operation))
    (playReference : Bool) : IsOrderly (session.beginCapture index source playReference) := by
  have silent := orderly_stopCadence (orderly_stopPlayback orderly)
  generalize quiet : session.stopPlayback.stopCadence = quietSession at silent
  have noPlayback : quietSession.playback = none := by
    rw [← quiet, stopCadence_eq, stopPlayback_eq]
    rfl
  have noCadence : quietSession.cadence = none := by
    rw [← quiet, stopCadence_eq]
  have stillIdle : quietSession.held = none := by
    rw [← quiet, stopCadence_eq, stopPlayback_eq]
    exact idle
  have tuned : IsOrderly
        (if playReference && quietSession.hasScheduler then quietSession.startCadence
        else quietSession) ∧
      (if playReference && quietSession.hasScheduler then quietSession.startCadence
        else quietSession).playback = none ∧
      (if playReference && quietSession.hasScheduler then quietSession.startCadence
        else quietSession).held = none := by
    split
    · exact ⟨orderly_startCadence silent noPlayback noCadence, noPlayback, stillIdle⟩
    · exact ⟨silent, noPlayback, stillIdle⟩
  unfold beginCapture
  rw [quiet]
  dsimp only
  generalize (if playReference && quietSession.hasScheduler then quietSession.startCadence
    else quietSession) = ready at tuned
  obtain ⟨tuned, unplayed, unheld⟩ := tuned
  constructor
  · rfl
  · intro number active
    have still := active_append active
    rw [tuned.loops number still] at unheld
    cases unheld
  · simp [offered, unplayed]
  · exact tuned.playing
  · exact tuned.heard

theorem orderly_startCapture {session : Session} (orderly : IsOrderly session) (index : Int)
    (source : Source (List Operation)) (playReference : Bool) :
    IsOrderly (session.startCapture index source playReference).1 := by
  obtain ⟨silent, idle⟩ := orderly_unless_recording orderly
  have offered : ∀ {other : Session}, IsOrderly other → IsOrderly (other.offered source none) :=
    fun orderly => ⟨orderly.marked, orderly.loops, orderly.alone, orderly.playing, orderly.heard⟩
  unfold startCapture
  dsimp only
  split
  · exact offered silent
  · split
    · exact offered silent
    · split
      · exact orderly_beginCapture silent idle index source playReference
      · exact offered silent

theorem orderly_startPlayback {session : Session} (orderly : IsOrderly session) :
    IsOrderly session.startPlayback.1 := by
  have silent := orderly_stopPlayback (orderly_stopCapture orderly)
  generalize quiet : session.stopCapture.stopPlayback = quietSession at silent
  have noPlayback : quietSession.playback = none := by
    rw [← quiet, stopPlayback_eq]
  have noCadence : quietSession.cadence = none := by
    rw [← quiet, stopPlayback_eq, stopCapture_eq]
    rfl
  have idle : quietSession.held = none := by
    rw [← quiet, stopPlayback_eq, stopCapture_eq]
    rfl
  have unheard : sounding quietSession.journal.calls = [] := by
    rw [silent.heard, playbacks, noPlayback, noCadence]
    rfl
  unfold startPlayback
  rw [quiet]
  split
  · exact orderly
  · dsimp only
    split
    · exact silent
    · split
      · exact silent
      · constructor
        · exact silent.marked
        · exact silent.loops
        · exact fun _ => ⟨idle, noCadence⟩
        · simp [Playback.start, called, playbacks, noCadence]
        · simp [Playback.start, called, playbacks, noCadence, sounding_append_play, unheard]

theorem orderly_performWith {aside : List Operation → Session → Session} {operation : Operation}
    {session : Session} (instant : operation.IsInstant) (orderly : IsOrderly session) :
    IsOrderly (performWith aside operation session).1 := by
  cases operation with
  | loadDocument document =>
      exact (sameAudio_adopt _ document).orderly (orderly_stopCapture orderly)
  | updateBlock | addBlock | moveBlock => exact (sameAudio_edited session _).orderly orderly
  | removeBlock index =>
      exact (sameAudio_edited _ _).orderly (orderly_unless_recording orderly).1
  | setKey index =>
      simp only [performWith, setKey]
      split
      · exact orderly
      · exact (sameAudio_adopt session _).orderly orderly
  | setSettings settings => exact (sameAudio_adopt session _).orderly orderly
  | drawings =>
      simp only [performWith]
      split <;> exact orderly
  | importScore score forceKey =>
      simp only [performWith, importScore]
      split
      · exact orderly
      · exact orderly
      · exact ⟨orderly.marked, orderly.loops, orderly.alone, orderly.playing, orderly.heard⟩
      · exact (sameAudio_adopt session _).orderly orderly
  | startCapture index source playReference =>
      exact orderly_startCapture orderly index source playReference
  | runCapture => exact instant.elim
  | stopCapture => exact orderly_stopCapture orderly
  | startPlayback => exact orderly_startPlayback orderly
  | stopPlayback => exact orderly_stopPlayback orderly

/-! Running -/

theorem orderly_started {session : Session} {number : Nat} (held : session.held = some number)
    (orderly : IsOrderly session) : IsOrderly (session.started number) := by
  refine ⟨orderly.marked, ?_, orderly.alone, orderly.playing, orderly.heard⟩
  intro other active
  rw [started, recorderOf_withRecorder] at active
  split at active
  · rename_i here
    exact here.1 ▸ held
  · exact orderly.loops other active

theorem orderly_release {session : Session} (orderly : IsOrderly session)
    (inactive : ∀ number, (session.recorderOf number).active = false) :
    IsOrderly session.release where
  marked := rfl
  loops number active := by
    have still : (session.recorderOf number).active = true := active
    rw [inactive number] at still
    cases still
  alone playing := ⟨rfl, (orderly.alone playing).2⟩
  playing := orderly.playing
  heard := orderly.heard

theorem sameAudio_report (session : Session) (number : Nat)
    (outcome : Except CaptureFault (List String)) :
    SameAudio session (session.report number outcome).1 := by
  obtain ⟨captureError, status, told⟩ := report_eq session number outcome
  rw [told]
  exact ⟨rfl, rfl, rfl, rfl, rfl, fun _ => rfl⟩

theorem orderly_conclude (aside : List Operation → Session → Session) (number : Nat)
    (fault : Option CaptureFault) {session : Session} (orderly : IsOrderly session) :
    IsOrderly (session.conclude aside number fault).1 := by
  unfold conclude
  dsimp only [stage, Capture.Stage.stop]
  generalize stops : session.withRecorder number (session.recorderOf number).stop = stopped
  -- A loop that goes on after this one has stopped is that of the held recording,
  -- which asides may have begun in the meantime.
  have ended : ∀ other, (stopped.recorderOf other).active = true →
      number ≠ other ∧ session.held = some other := by
    intro other active
    rw [← stops] at active
    obtain ⟨elsewhere, still⟩ := active_stopped active
    exact ⟨elsewhere, orderly.loops other still⟩
  have sameHeld : stopped.held = session.held := by rw [← stops]; rfl
  have stoppedOrderly : IsOrderly stopped := by
    subst stops
    exact ⟨orderly.marked, fun other active => (ended other active).2, orderly.alone,
      orderly.playing, orderly.heard⟩
  generalize Capture.Stage.outcome _ stopped fault = outcome
  have told := sameAudio_report stopped number outcome
  generalize reported : stopped.report number outcome = report at told
  have toldOrderly := told.orderly stoppedOrderly
  split
  · rename_i held
    apply orderly_release toldOrderly
    intro other
    rw [told.loops, ← Bool.not_eq_true]
    intro active
    obtain ⟨elsewhere, current⟩ := ended other active
    rw [told.held, sameHeld, current] at held
    exact elsewhere (Option.some.inj held).symm
  · exact toldOrderly

theorem isInvariant_isOrderly : IsInvariant IsOrderly where
  opened document hasScheduler _ := ⟨rfl, by simp [ofDocument, recorderOf], by simp [ofDocument],
    by simp [ofDocument, playbacks], by simp [ofDocument, playbacks, sounding]⟩
  replied _ _ orderly :=
    ⟨orderly.marked, orderly.loops, orderly.alone, orderly.playing, orderly.heard⟩
  instant _ _ _ instant orderly := orderly_performWith instant orderly
  started _ _ held orderly := orderly_started held orderly
  delivered aside number target frame session orderly :=
    (sameAudio_deliver aside number target frame session).orderly orderly
  concluded aside number fault _ orderly := orderly_conclude aside number fault orderly

/-! What is active -/

theorem IsOrderly.activePlaybacks_eq {session : Session} (orderly : IsOrderly session) :
    session.activePlaybacks = session.playbacks :=
  List.filter_eq_self.mpr orderly.playing

theorem IsOrderly.playbacks_length {session : Session} (orderly : IsOrderly session) :
    session.playbacks.length ≤ 1 := by
  cases playback : session.playback with
  | none => cases cadence : session.cadence <;> simp [playbacks, playback, cadence]
  | some document =>
      have silent := (orderly.alone (by simp [playback])).2
      simp [playbacks, playback, silent]

theorem IsOrderly.not_capturing {session : Session} (orderly : IsOrderly session)
    (playing : session.isPlaying = true) : ¬session.IsCapturing := by
  have held : session.held = none := by
    cases playback : session.playback with
    | none => simp [isPlaying, playback] at playing
    | some document => exact (orderly.alone (by simp [playback])).1
  rintro (some | ⟨number, active⟩)
  · simp [held] at some
  · have current := orderly.loops number active
    rw [held] at current
    cases current

theorem silencing_of_inactive {playback : Option (Playback Float)}
    (inactive : (playback.map (·.active)).getD false = false) : silencing playback = [] := by
  cases playback with
  | none => rfl
  | some playback =>
      have inactive : playback.active = false := inactive
      simp [silencing, Playback.stop, inactive]

/-- Whatever has been asked of a session, it is capturing or playing but not
both, and all that sounds are the tones of its one active playback. Stopping
what is not active leaves the scheduler alone. -/
theorem occurs_one_audio_session {session : Session} (occurs : Occurs session) :
    ¬(session.IsCapturing ∧ session.isPlaying = true) ∧
      (session.recordingBlock.isSome = true ↔ session.held.isSome = true) ∧
      (session.activePlaybacks = [] ∧ sounding session.journal.calls = [] ∨
        ∃ playback, session.activePlaybacks = [playback] ∧
          sounding session.journal.calls = playback.tones) ∧
      (∀ depth, (session.cadence.map (·.active)).getD false = false →
        (perform depth .stopCapture session).1.journal.calls = session.journal.calls) ∧
      ∀ depth, session.isPlaying = false →
        (perform depth .stopPlayback session).1.journal.calls = session.journal.calls := by
  have orderly := isInvariant_isOrderly.occurs occurs
  refine ⟨fun ⟨capturing, playing⟩ => orderly.not_capturing playing capturing, ?_, ?_, ?_, ?_⟩
  · rw [orderly.marked]
  · have heard := orderly.heard
    have few := orderly.playbacks_length
    rw [orderly.activePlaybacks_eq]
    cases playing : session.playbacks with
    | nil => exact .inl ⟨rfl, by rw [heard, playing]; rfl⟩
    | cons playback others =>
        obtain rfl : others = [] := by simpa [playing] using few
        exact .inr ⟨playback, rfl, by rw [heard, playing]; simp⟩
  · intro depth inactive
    rw [perform_eq]
    simp only [performWith, stopCapture_eq, silencing_of_inactive inactive]
    exact List.append_nil _
  · intro depth inactive
    rw [perform_eq]
    simp only [performWith, stopPlayback_eq, silencing_of_inactive inactive]
    exact List.append_nil _

/-- While a singer is being tuned in, the chords of the cadence are what sounds. -/
theorem one_audio_session_while_tuned_in :
    ∃ cadence : Playback Float,
      (perform 0 (.startCapture 0 { signals := [] } true) (ofDocument {} true)).1.activePlaybacks =
        [cadence] ∧
      sounding (perform 0 (.startCapture 0 { signals := [] } true)
        (ofDocument {} true)).1.journal.calls = cadence.tones := by
  obtain ⟨-, -, ⟨silent, -⟩ | sounds, -, -⟩ := occurs_one_audio_session
    (.performed 0 (.startCapture 0 { signals := [] } true) (.opened {} true))
  · exact absurd (congrArg List.length silent) (by decide)
  · exact sounds

end Session

end Jianpu
