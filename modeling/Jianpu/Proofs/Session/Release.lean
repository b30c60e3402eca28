import Jianpu.Proofs.Session.Holding

/-! The source of a recording. It is closed once when a recording whose loop has
been started is let go, and never again; a recording that is let go before that
leaves its source open. -/

set_option autoImplicit false

namespace Jianpu

open Number (Amount)
open Capture (CaptureFault Recorder Signal Source Wait)

namespace Capture.Recorder

theorem closings_stop (recorder : Recorder) :
    recorder.stop.closings = recorder.closings + if recorder.active then 1 else 0 := by
  unfold stop
  split <;> rfl

theorem stop_of_inactive {recorder : Recorder} (inactive : recorder.active = false) :
    recorder.stop = recorder := by
  simp [stop, inactive]

end Capture.Recorder

namespace Session

/-! Recordings that have been let go -/

/-- The recording of a number has been let go, and is a given one. -/
structure IsLeft (number : Nat) (recording : Recording) (session : Session) : Prop where
  gone : session.held ≠ some number
  found : session.recordings[number]? = some recording

/-- A recording that has been let go stays as it is: it is never taken up again. -/
theorem isKept_isLeft (number : Nat) (recording : Recording) :
    IsKept IsOrderly (fun _ => True) (· ≠ number) (IsLeft number recording) where
  permitted _ _ _ _ _ _ _ _ _ := trivial
  replied _ _ left := ⟨left.gone, left.found⟩
  instant aside operation session instant _ orderly left := by
    obtain ⟨gone, found⟩ :=
      (turnover_performWith instant orderly.marked).of_gone left.gone left.found
    exact ⟨gone, found⟩
  started session other held left := by
    have elsewhere : other ≠ number := by
      rintro rfl
      exact left.gone held
    refine ⟨elsewhere, left.gone, ?_⟩
    rw [Session.started, getElem?_withRecorder, if_neg elsewhere]
    exact left.found
  delivered aside other target frame session elsewhere _ left := by
    obtain ⟨held, recorder, -, -, recordings⟩ := recordings_deliver aside other target frame session
    refine ⟨held ▸ left.gone, ?_⟩
    rw [recordings, getElem?_withRecorder, if_neg elsewhere]
    exact left.found
  concluded aside other fault session elsewhere _ left := by
    obtain ⟨held, recordings⟩ := recordings_conclude aside other fault session
    constructor
    · rw [held]
      split
      · exact (Option.some_ne_none number).symm
      · exact left.gone
    · rw [recordings, getElem?_withRecorder, if_neg elsewhere]
      exact left.found

theorem IsLeft.comesTo {number : Nat} {recording : Recording} {first last : Session}
    (left : IsLeft number recording first) (orderly : IsOrderly first)
    (comes : ComesTo (fun _ => True) first last) : IsLeft number recording last :=
  (((isKept_isLeft number recording).joined isInvariant_isOrderly).comesTo comes ⟨orderly, left⟩).2

/-! Closings -/

/-- The source of the held recording is open, and no source is closed twice. -/
structure IsAccounted (session : Session) : Prop where
  present : ∀ number, session.held = some number → number < session.recordings.length
  unclosed : ∀ (number : Nat) (recording : Recording), session.held = some number →
    session.recordings[number]? = some recording → recording.recorder.closings = 0
  once : ∀ (number : Nat) (recording : Recording), session.recordings[number]? = some recording →
    recording.recorder.closings ≤ 1

theorem IsAccounted.performWith {aside : List Operation → Session → Session}
    {operation : Operation} {session : Session} (instant : operation.IsInstant)
    (orderly : IsOrderly session) (accounted : IsAccounted session) :
    IsAccounted (performWith aside operation session).1 := by
  have turnover : Turnover operation session (Session.performWith aside operation session).1 :=
    turnover_performWith instant orderly.marked
  generalize (Session.performWith aside operation session).1 = after at turnover
  have each : ∀ (number : Nat) (recording : Recording), after.recordings[number]? = some recording →
      (after.held = some number → recording.recorder.closings = 0) ∧
        recording.recorder.closings ≤ 1 := by
    intro number recording found
    rcases Nat.lt_or_ge number session.recordings.length with inside | fresh
    · have before := List.getElem?_eq_getElem inside
      have few := accounted.once number _ before
      by_cases holding : session.held = some number
      · have closings := accounted.unclosed number _ holding before
        rcases turnover.of_held holding before with ⟨-, same⟩ | ⟨gone, stopped⟩
        · cases same.symm.trans found
          exact ⟨fun _ => closings, few⟩
        · cases stopped.symm.trans found
          refine ⟨fun held => absurd held gone, ?_⟩
          rw [Recorder.closings_stop, closings]
          split <;> omega
      · obtain ⟨gone, same⟩ := turnover.of_gone holding before
        cases same.symm.trans found
        exact ⟨fun held => absurd held gone, few⟩
    · obtain ⟨-, -, -, -, -, rfl⟩ := turnover.of_new fresh found
      exact ⟨fun _ => rfl, Nat.zero_le 1⟩
  refine ⟨?_, fun number recording held found => (each number recording found).1 held,
    fun number recording found => (each number recording found).2⟩
  intro number held
  cases turnover with
  | goesOn same recordings =>
      rw [recordings]
      exact accounted.present number (same ▸ held)
  | ended teardown =>
      cases teardown with
      | letGo idle =>
          rw [idle] at held
          cases held
      | begun index source playReference _ newest recordings =>
          rw [newest] at held
          cases held
          simp [recordings, length_letGo]

/-- What happens to one recording in a run leaves the others accounted for. -/
theorem IsAccounted.withRecorder {session after : Session} (accounted : IsAccounted session)
    {number : Nat} {recorder : Recorder}
    (recordings : after.recordings = (session.withRecorder number recorder).recordings)
    (held : ∀ other, after.held = some other → session.held = some other)
    (unclosed : after.held = some number → recorder.closings = 0)
    (once : recorder.closings ≤ 1) : IsAccounted after := by
  have other : ∀ (place : Nat) (recording : Recording), after.recordings[place]? = some recording →
      place = number ∧ recording.recorder = recorder ∨
        session.recordings[place]? = some recording := by
    intro place recording found
    rw [recordings, getElem?_withRecorder] at found
    split at found
    · rename_i same
      obtain ⟨before, -, rfl⟩ := Option.map_eq_some_iff.mp found
      exact .inl ⟨same.symm, rfl⟩
    · exact .inr found
  constructor
  · intro place holding
    rw [recordings, length_withRecorder]
    exact accounted.present place (held place holding)
  · intro place recording holding found
    rcases other place recording found with ⟨rfl, same⟩ | before
    · rw [same]
      exact unclosed holding
    · exact accounted.unclosed place recording (held place holding) before
  · intro place recording found
    rcases other place recording found with ⟨rfl, same⟩ | before
    · rw [same]
      exact once
    · exact accounted.once place recording before

theorem IsAccounted.closings_le {session : Session} (accounted : IsAccounted session)
    (number : Nat) : (session.recorderOf number).closings ≤ 1 := by
  cases found : session.recordings[number]? with
  | none => simp [recorderOf, found]
  | some recording =>
      rw [recorderOf_eq found]
      exact accounted.once number recording found

theorem IsAccounted.closings_of_held {session : Session} (accounted : IsAccounted session)
    {number : Nat} (held : session.held = some number) :
    (session.recorderOf number).closings = 0 := by
  cases found : session.recordings[number]? with
  | none => simp [recorderOf, found]
  | some recording =>
      rw [recorderOf_eq found]
      exact accounted.unclosed number recording held found

theorem isKept_isAccounted :
    IsKept IsOrderly (fun _ => True) (fun _ => True) IsAccounted where
  permitted _ _ _ _ _ _ _ _ _ := trivial
  replied _ _ accounted := ⟨accounted.present, accounted.unclosed, accounted.once⟩
  instant _ _ _ instant _ orderly accounted := accounted.performWith instant orderly
  started session number held accounted := by
    have closings := accounted.closings_of_held held
    refine ⟨trivial, accounted.withRecorder rfl (fun _ holding => holding) (fun _ => closings) ?_⟩
    exact (congrArg (· ≤ 1) closings).mpr (Nat.zero_le 1)
  delivered aside number target frame session _ _ accounted := by
    obtain ⟨held, recorder, -, closings, recordings⟩ :=
      recordings_deliver aside number target frame session
    refine accounted.withRecorder recordings (fun _ holding => held ▸ holding) ?_ ?_
    · intro holding
      rw [closings, accounted.closings_of_held (held ▸ holding)]
    · rw [closings]
      exact accounted.closings_le number
  concluded aside number fault session _ orderly accounted := by
    obtain ⟨held, recordings⟩ := recordings_conclude aside number fault session
    refine accounted.withRecorder recordings ?_ ?_ ?_
    · intro other holding
      rw [held] at holding
      split at holding
      · cases holding
      · exact holding
    · intro holding
      rw [held] at holding
      split at holding
      · cases holding
      · exact absurd holding ‹_›
    · rw [Recorder.closings_stop]
      split
      · rename_i active
        have unclosed := accounted.closings_of_held (orderly.loops number active)
        omega
      · exact accounted.closings_le number

theorem accounted_of_occurs {session : Session} (occurs : Occurs session) :
    IsAccounted session := by
  obtain ⟨document, hasScheduler, logarithm, comes⟩ := occurs.comes
  refine ((isKept_isAccounted.joined isInvariant_isOrderly).comesTo comes ?_).2
  refine ⟨isInvariant_isOrderly.opened document hasScheduler logarithm, ?_, ?_, ?_⟩ <;>
    simp [ofDocument]

/-! Recordings that have been run -/

/-- A recording that is run or has been run. -/
def HasBegun (number : Nat) (session : Session) : Prop :=
  ∃ recording, session.recordings[number]? = some recording ∧
    (recording.recorder.active = true ∨ 0 < recording.recorder.closings)

theorem begun_stop {recorder : Recorder} (begun : recorder.active = true ∨ 0 < recorder.closings) :
    recorder.stop.active = true ∨ 0 < recorder.stop.closings := by
  rw [Recorder.closings_stop]
  rcases begun with active | closed
  · simp [active]
  · exact .inr (Nat.add_pos_left closed _)

theorem HasBegun.withRecorder {session after : Session} {number other : Nat} {recorder : Recorder}
    (begun : HasBegun number session)
    (recordings : after.recordings = (session.withRecorder other recorder).recordings)
    (still : (session.recorderOf other).active = true ∨ 0 < (session.recorderOf other).closings →
      recorder.active = true ∨ 0 < recorder.closings) : HasBegun number after := by
  obtain ⟨recording, found, begun⟩ := begun
  rw [HasBegun, recordings, getElem?_withRecorder, found]
  split
  · rename_i same
    subst same
    rw [recorderOf_eq found] at still
    exact ⟨_, rfl, still begun⟩
  · exact ⟨recording, rfl, begun⟩

theorem isKept_hasBegun (number : Nat) :
    IsKept IsOrderly (fun _ => True) (fun _ => True) (HasBegun number) where
  permitted _ _ _ _ _ _ _ _ _ := trivial
  replied _ _ begun := begun
  instant aside operation session instant _ orderly begun := by
    obtain ⟨recording, found, begun⟩ := begun
    have turnover : Turnover operation session (Session.performWith aside operation session).1 :=
      turnover_performWith instant orderly.marked
    by_cases holding : session.held = some number
    · rcases turnover.of_held holding found with ⟨-, same⟩ | ⟨-, stopped⟩
      · exact ⟨recording, same, begun⟩
      · exact ⟨_, stopped, begun_stop begun⟩
    · exact ⟨recording, (turnover.of_gone holding found).2, begun⟩
  started session other held begun := ⟨trivial, begun.withRecorder rfl fun _ => .inl rfl⟩
  delivered aside other target frame session _ _ begun := by
    obtain ⟨-, recorder, active, closings, recordings⟩ :=
      recordings_deliver aside other target frame session
    apply begun.withRecorder recordings
    rw [active, closings]
    exact id
  concluded aside other fault session _ _ begun := by
    obtain ⟨-, recordings⟩ := recordings_conclude aside other fault session
    exact begun.withRecorder recordings begun_stop

theorem hasBegun_started {session : Session} {number : Nat}
    (inside : number < session.recordings.length) : HasBegun number (session.started number) :=
  ⟨_, started_recordings (List.getElem?_eq_getElem inside), .inl rfl⟩

/-- A recording that has begun has either its loop going on, or its source closed
and been let go. -/
theorem closings_of_begun {session : Session} (orderly : IsOrderly session)
    (accounted : IsAccounted session) {number : Nat} (begun : HasBegun number session) :
    session.held = some number ∧ (session.recorderOf number).active = true ∧
        (session.recorderOf number).closings = 0 ∨
      session.held ≠ some number ∧ (session.recorderOf number).active = false ∧
        (session.recorderOf number).closings = 1 := by
  obtain ⟨recording, found, begun⟩ := begun
  rw [← recorderOf_eq found] at begun
  by_cases held : session.held = some number
  · have closings := accounted.closings_of_held held
    rw [closings] at begun
    exact .inl ⟨held, begun.resolve_right (Nat.lt_irrefl 0), closings⟩
  · have inactive : (session.recorderOf number).active = false := by
      rw [← Bool.not_eq_true]
      exact fun active => held (orderly.loops number active)
    have few := accounted.closings_le number
    have closed : 0 < (session.recorderOf number).closings :=
      begun.resolve_left (by rw [inactive]; decide)
    exact .inr ⟨held, inactive, Nat.le_antisymm few closed⟩

/-! Letting go -/

/-- A run closes the source of its recording and lets the recording go, if nothing
has done so in the meantime. -/
theorem left_runCapture {session : Session} (orderly : IsOrderly session)
    (accounted : IsAccounted session) {number : Nat} (held : session.held = some number)
    (depth : Nat) :
    ∃ recording, IsLeft number recording (perform depth .runCapture session).1 ∧
      recording.recorder.closings = 1 := by
  have inside := accounted.present number held
  have found := List.getElem?_eq_getElem inside
  have begun := started_recordings found
  have accounts := isKept_isAccounted.joined isInvariant_isOrderly
  have runs := (isKept_hasBegun number).joined isInvariant_isOrderly
  obtain ⟨-, started⟩ := accounts.started session number held ⟨orderly, accounted⟩
  have consumed := accounts.consume (accounts.asides depth) trivial begun started
  have stillBegun := runs.consume (runs.asides depth) trivial begun
    ⟨started.1, hasBegun_started inside⟩
  have ends := closings_of_begun consumed.1 consumed.2 stillBegun.2
  rw [perform_eq, Session.performWith, runCapture_of_held held found]
  dsimp only at ends ⊢
  generalize (stage (asides depth) number).consume session.recordings[number].source
    (session.started number) = last at ends stillBegun
  obtain ⟨letGo, recordings⟩ := recordings_conclude (asides depth) number last.2 last.1
  obtain ⟨recording, present, -⟩ := stillBegun.2
  refine ⟨{ recording with recorder := (last.1.recorderOf number).stop }, ⟨?_, ?_⟩, ?_⟩
  · rw [letGo]
    split
    · exact (Option.some_ne_none number).symm
    · assumption
  · rw [recordings, getElem?_withRecorder, if_pos rfl, present]
    rfl
  · -- The end of the run closes the source unless an aside has done so by then.
    rw [Recorder.closings_stop]
    rcases ends with ⟨-, active, unclosed⟩ | ⟨-, inactive, closed⟩
    · rw [active, unclosed]
      rfl
    · rw [inactive, closed]
      rfl

/-- An operation that is over at once closes the source of the held recording when
it lets it go while its loop goes on, and otherwise leaves it open. -/
theorem left_instant {session : Session} (orderly : IsOrderly session)
    (accounted : IsAccounted session) {number : Nat} (held : session.held = some number)
    {operation : Operation} (instant : operation.IsInstant) (depth : Nat)
    (gone : (perform depth operation session).1.held ≠ some number) :
    ∃ recording, IsLeft number recording (perform depth operation session).1 ∧
      recording.recorder.closings = if (session.recorderOf number).active then 1 else 0 := by
  have found := List.getElem?_eq_getElem (accounted.present number held)
  have unclosed := accounted.closings_of_held held
  have turnover : Turnover operation session (perform depth operation session).1 := by
    rw [perform_eq]
    exact turnover_performWith instant orderly.marked
  rw [recorderOf_eq found] at unclosed ⊢
  rcases turnover.of_held held found with ⟨holding, -⟩ | ⟨-, stopped⟩
  · exact absurd holding gone
  · refine ⟨_, ⟨gone, stopped⟩, ?_⟩
    rw [Recorder.closings_stop, unclosed, Nat.zero_add]

/-- The source of a recording is open as long as the recording is held. When one
is let go that is run by then, its source has been closed once, and it stays at
that in all states to come. When it is let go before it is run, its source has not
been closed. -/
theorem let_go_source_is_closed_once {session : Session} (occurs : Occurs session) {number : Nat}
    (held : session.held = some number) (depth : Nat) (operation : Operation)
    {after : Session} (performed : (perform depth operation session).1 = after) :
    (session.recorderOf number).closings = 0 ∧
      (after.held = some number → (after.recorderOf number).closings = 0) ∧
      (after.held ≠ some number →
        (operation = .runCapture ∨ (session.recorderOf number).active = true →
          (after.recorderOf number).closings = 1) ∧
        (operation ≠ .runCapture → (session.recorderOf number).active = false →
          (after.recorderOf number).closings = 0) ∧
        ∀ later, ComesTo (fun _ => True) after later →
          later.recorderOf number = after.recorderOf number) := by
  have orderly := isInvariant_isOrderly.occurs occurs
  have accounted := accounted_of_occurs occurs
  have occursAfter : Occurs after := performed ▸ .performed depth operation occurs
  have orderlyAfter := isInvariant_isOrderly.occurs occursAfter
  have accountedAfter := accounted_of_occurs occursAfter
  refine ⟨accounted.closings_of_held held, accountedAfter.closings_of_held, ?_⟩
  intro gone
  have letGo : ∃ recording, IsLeft number recording after ∧
      (operation = .runCapture ∨ (session.recorderOf number).active = true →
        recording.recorder.closings = 1) ∧
      (operation ≠ .runCapture → (session.recorderOf number).active = false →
        recording.recorder.closings = 0) := by
    by_cases runs : operation = .runCapture
    · subst runs
      obtain ⟨recording, left, closed⟩ := left_runCapture orderly accounted held depth
      exact ⟨recording, performed ▸ left, fun _ => closed, fun other => absurd rfl other⟩
    · have instant : operation.IsInstant := by
        cases operation with
        | runCapture => exact runs rfl
        | _ => trivial
      obtain ⟨recording, left, closings⟩ :=
        left_instant orderly accounted held instant depth (performed ▸ gone)
      refine ⟨recording, performed ▸ left, ?_, ?_⟩
      · intro begun
        rw [closings, begun.resolve_left runs]
        rfl
      · intro _ idle
        rw [closings, idle]
        rfl
  obtain ⟨recording, left, closed, unclosed⟩ := letGo
  rw [recorderOf_eq left.found]
  refine ⟨closed, unclosed, fun later comes => ?_⟩
  exact recorderOf_eq (left.comesTo orderlyAfter comes).found

/-- A source whose first detection comes after the recording has been stopped. -/
def stoppedMidway : Source (List Operation) :=
  { signals := [.aside [.stopCapture], .frame ⟨.real 0, .real 440, .real 1⟩] }

/-- A run that is stopped while it awaits a detection. -/
theorem let_go_source_is_closed_once_after_run :
    let session := (perform 0 (.startCapture 0 stoppedMidway false) (ofDocument {} false)).1
    let after := (perform 1 .runCapture session).1
    Occurs session ∧ session.held = some 0 ∧ after.held ≠ some 0 ∧
      (after.recorderOf 0).closings = 1 := by
  intro session after
  have occurs : Occurs session := .performed 0 _ (.opened {} false)
  have held : session.held = some 0 := rfl
  have gone : after.held ≠ some 0 := by decide
  have released := let_go_source_is_closed_once occurs held 1 .runCapture
    (rfl : (perform 1 .runCapture session).1 = after)
  exact ⟨occurs, held, gone, (released.2.2 gone).1 (.inl rfl)⟩

/-- A recording that is stopped before it is run leaves its source open. -/
theorem let_go_source_stays_open_before_run :
    let session := (perform 0 (.startCapture 0 { signals := [] } false) (ofDocument {} false)).1
    let after := (perform 0 .stopCapture session).1
    session.held = some 0 ∧ after.held = none ∧ (after.recorderOf 0).closings = 0 := by
  exact ⟨rfl, rfl, rfl⟩

end Session

end Jianpu
