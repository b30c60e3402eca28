import Jianpu.Proofs.Capture.Loop
import Jianpu.Session.Script

/-! The states that a session comes to: after any operations from an opened
document, and whenever a running capture awaits its next signal. What every
instant operation and every part of a run keeps holds in all of them. -/

set_option autoImplicit false

namespace Jianpu

open Number (Amount)
open Capture (CaptureFault Recorder Signal Source Wait)

/-- The operations that are over at once, which is all but to run a capture. -/
def Operation.IsInstant : Operation → Prop
  | .runCapture => False
  | _ => True

namespace Session

/-- The performance of asides that are nested up to a depth. -/
def asides : (depth : Nat) → List Operation → Session → Session
  | 0, _, session => session
  | depth + 1, operations, session => operations.foldl (note (perform depth)) session

theorem perform_eq (depth : Nat) : perform depth = performWith (asides depth) := by
  cases depth <;> rfl

def started (session : Session) (number : Nat) : Session :=
  session.withRecorder number (session.recorderOf number).start

theorem started_recordings {session : Session} {number : Nat} {recording : Recording}
    (found : session.recordings[number]? = some recording) :
    (session.started number).recordings[number]? =
      some { recording with recorder := recording.recorder.start } := by
  simp [started, withRecorder, recorderOf, found]

/-- Ends a run that has consumed its source, with what is replied then. -/
def conclude (aside : List Operation → Session → Session) (session : Session) (number : Nat)
    (fault : Option CaptureFault) : Session × SessionReply :=
  let stopped := (stage aside number).stop session
  let (told, reply) := stopped.report number ((stage aside number).outcome stopped fault)
  (if told.held = some number then told.release else told, reply)

/-- A report tells of a failure and changes nothing else. -/
theorem report_eq (session : Session) (number : Nat)
    (outcome : Except CaptureFault (List String)) :
    ∃ captureError status,
      (session.report number outcome).1 = { session with captureError, status } := by
  cases outcome with
  | ok tokens => exact ⟨session.captureError, session.status, rfl⟩
  | error fault =>
      cases fault with
      | device text => exact ⟨some text, "Microphone error: " ++ text, rfl⟩
      | _ => exact ⟨session.captureError, session.status, rfl⟩

theorem runCapture_of_held {aside : List Operation → Session → Session} {session : Session}
    {number : Nat} {recording : Recording} (held : session.held = some number)
    (found : session.recordings[number]? = some recording) :
    session.runCapture aside =
      let consumed := (stage aside number).consume recording.source (session.started number)
      consumed.1.conclude aside number consumed.2 := by
  simp only [runCapture, held, found, Capture.Stage.run_eq]
  rfl

/-- The session that has heard a detection, before a token of it is written. -/
def shown (session : Session) (number : Nat) (heard : Recorder.Hearing) : Session :=
  { session.withRecorder number heard.recorder with
    cell :=
      { session.cell with
        detectedLabel := heard.label.getD session.cell.detectedLabel } }

theorem deliver_eq (aside : List Operation → Session → Session) (number : Nat) (target : Int)
    (frame : Capture.Frame Amount) (session : Session) :
    (stage aside number).deliver target frame session =
      let heard := (session.recorderOf number).hear session.cell.key frame
      let shown := session.shown number heard
      match heard.token with
      | .error fault => (shown, some (.number fault))
      | .ok none => (shown, none)
      | .ok (some token) =>
        (shown.withRecorder number
          { heard.recorder with committed := heard.recorder.committed ++ [token] }).appendCaptured
            target token := by
  have shows : ∀ heard : Recorder.Hearing,
      (stage aside number).show? heard.label (session.withRecorder number heard.recorder) =
        session.shown number heard := by
    intro heard
    unfold Capture.Stage.show? shown
    cases heard.label <;> rfl
  rw [Capture.Stage.deliver]
  dsimp only
  rw [← shows]
  rfl

/-- The states between two operations, be they asked for one after the other or
while a capture awaits a signal. -/
inductive Occurs : Session → Prop where
  | opened (document : Document) (hasScheduler : Bool)
      (logarithm : Pitch.Logarithm := Pitch.binaryLogarithm) :
      Occurs (ofDocument document hasScheduler logarithm)
  | performed {session : Session} (depth : Nat) (operation : Operation) :
      Occurs session → Occurs (perform depth operation session).1
  | noted {session : Session} (depth : Nat) (operation : Operation) :
      Occurs session → Occurs (note (perform depth) session operation)
  | awaiting {session : Session} {number : Nat} {recording : Recording} {target : Int}
      {wait : Wait (List Operation) Session} (depth : Nat) :
      Occurs session → session.held = some number →
      session.recordings[number]? = some recording → session.recordingBlock = some target →
      (stage (asides depth) number).Reaches recording.source
        ⟨target, recording.source.script, session.started number⟩ wait →
      Occurs wait.state

/-- A property of sessions that no part of an operation breaks. -/
structure IsInvariant (invariant : Session → Prop) : Prop where
  opened : ∀ document hasScheduler logarithm,
    invariant (ofDocument document hasScheduler logarithm)
  replied : ∀ session replies, invariant session →
    invariant { session with journal := { session.journal with replies } }
  instant : ∀ aside operation session, operation.IsInstant → invariant session →
    invariant (performWith aside operation session).1
  started : ∀ session number, session.held = some number → invariant session →
    invariant (session.started number)
  delivered : ∀ aside number target frame session, invariant session →
    invariant ((stage aside number).deliver target frame session).1
  concluded : ∀ aside number fault session, invariant session →
    invariant (session.conclude aside number fault).1

/-- The states that a state comes to by permitted operations alone. -/
inductive ComesTo (permits : Operation → Prop) (first : Session) : Session → Prop where
  | refl : ComesTo permits first first
  | performed {session : Session} (depth : Nat) (operation : Operation) :
      permits operation → ComesTo permits first session →
      ComesTo permits first (perform depth operation session).1
  | noted {session : Session} (depth : Nat) (operation : Operation) :
      permits operation → ComesTo permits first session →
      ComesTo permits first (note (perform depth) session operation)
  | awaiting {session : Session} {number : Nat} {recording : Recording} {target : Int}
      {wait : Wait (List Operation) Session} (depth : Nat) :
      ComesTo permits first session → session.held = some number →
      session.recordings[number]? = some recording → session.recordingBlock = some target →
      (stage (asides depth) number).Reaches recording.source
        ⟨target, recording.source.script, session.started number⟩ wait →
      ComesTo permits first wait.state

theorem Occurs.comes {session : Session} (occurs : Occurs session) :
    ∃ document hasScheduler logarithm,
      ComesTo (fun _ => True) (ofDocument document hasScheduler logarithm) session := by
  induction occurs with
  | opened document hasScheduler logarithm => exact ⟨document, hasScheduler, logarithm, .refl⟩
  | performed depth operation _ ih =>
      obtain ⟨document, hasScheduler, logarithm, comes⟩ := ih
      exact ⟨document, hasScheduler, logarithm, .performed depth operation trivial comes⟩
  | noted depth operation _ ih =>
      obtain ⟨document, hasScheduler, logarithm, comes⟩ := ih
      exact ⟨document, hasScheduler, logarithm, .noted depth operation trivial comes⟩
  | awaiting depth _ held found block reached ih =>
      obtain ⟨document, hasScheduler, logarithm, comes⟩ := ih
      exact ⟨document, hasScheduler, logarithm, .awaiting depth comes held found block reached⟩

theorem ComesTo.occurs {permits : Operation → Prop} {first last : Session}
    (comes : ComesTo permits first last) (occurs : Occurs first) : Occurs last := by
  induction comes with
  | refl => exact occurs
  | performed depth operation _ _ ih => exact .performed depth operation ih
  | noted depth operation _ _ ih => exact .noted depth operation ih
  | awaiting depth _ held found block reached ih =>
      exact .awaiting depth ih held found block reached

/-- A property that permitted operations keep in the sessions that meet a known
one, while the recordings that they run are some of all. -/
structure IsKept (known : Session → Prop) (permits : Operation → Prop) (runs : Nat → Prop)
    (kept : Session → Prop) : Prop where
  permitted : ∀ (session : Session) (number : Nat) (recording : Recording)
    (operations : List Operation), kept session → session.recordings[number]? = some recording →
    .aside operations ∈ recording.source.signals → ∀ operation ∈ operations, permits operation
  replied : ∀ session replies, kept session →
    kept { session with journal := { session.journal with replies } }
  instant : ∀ aside operation session, operation.IsInstant → permits operation → known session →
    kept session → kept (performWith aside operation session).1
  started : ∀ session number, session.held = some number → kept session →
    runs number ∧ kept (session.started number)
  delivered : ∀ aside number target frame session, runs number → known session → kept session →
    kept ((stage aside number).deliver target frame session).1
  concluded : ∀ aside number fault session, runs number → known session → kept session →
    kept (session.conclude aside number fault).1

namespace IsKept

variable {permits : Operation → Prop} {runs : Nat → Prop} {kept : Session → Prop}
  (isKept : IsKept (fun _ => True) permits runs kept)

include isKept

theorem consume {aside : List Operation → Session → Session}
    (asideKeeps : ∀ operations session, (∀ operation ∈ operations, permits operation) →
      kept session → kept (aside operations session))
    {begun : Session} {number : Nat} {recording : Recording} (run : runs number)
    (found : begun.recordings[number]? = some recording) (holds : kept begun) :
    kept ((stage aside number).consume recording.source begun).1 := by
  apply Capture.Stage.consume_keeps _ _ (List.Subset.refl _) holds
  · intro operations state among
    exact asideKeeps operations state
      (isKept.permitted begun number recording operations holds found among)
  · intro target frame state
    exact isKept.delivered aside number target frame state run trivial

theorem runCapture {aside : List Operation → Session → Session}
    (asideKeeps : ∀ operations session, (∀ operation ∈ operations, permits operation) →
      kept session → kept (aside operations session))
    {session : Session} (holds : kept session) : kept (session.runCapture aside).1 := by
  cases held : session.held with
  | none => simpa only [Session.runCapture, held] using holds
  | some number =>
      cases found : session.recordings[number]? with
      | none => simpa only [Session.runCapture, held, found] using holds
      | some recording =>
          obtain ⟨run, started⟩ := isKept.started session number held holds
          have consumed := isKept.consume asideKeeps run (started_recordings found) started
          rw [runCapture_of_held held found]
          exact isKept.concluded _ _ _ _ run trivial consumed

theorem performWith {aside : List Operation → Session → Session}
    (asideKeeps : ∀ operations session, (∀ operation ∈ operations, permits operation) →
      kept session → kept (aside operations session))
    {operation : Operation} (permitted : permits operation) {session : Session}
    (holds : kept session) : kept (Session.performWith aside operation session).1 := by
  cases operation with
  | runCapture => exact isKept.runCapture asideKeeps holds
  | _ => exact isKept.instant aside _ session trivial permitted trivial holds

theorem asides (depth : Nat) : ∀ operations session, (∀ operation ∈ operations, permits operation) →
    kept session → kept (Session.asides depth operations session) := by
  induction depth with
  | zero => exact fun _ _ _ holds => holds
  | succ depth ih =>
      -- Asides are performed with those of the depth below, one after the other.
      intro operations
      induction operations with
      | nil => exact fun _ _ holds => holds
      | cons operation operations more =>
          intro session permitted holds
          obtain ⟨first, others⟩ := List.forall_mem_cons.mp permitted
          have performed := isKept.performWith ih first holds
          rw [← perform_eq] at performed
          exact more _ others (isKept.replied _ _ performed)

theorem perform (depth : Nat) {operation : Operation} (permitted : permits operation)
    {session : Session} (holds : kept session) :
    kept (Session.perform depth operation session).1 := by
  rw [perform_eq]
  exact isKept.performWith (isKept.asides depth) permitted holds

/-- What operations keep holds whenever a run awaits a signal. -/
theorem reaches {begun : Session} {number : Nat} {recording : Recording} {depth : Nat}
    {target : Int} {wait : Wait (List Operation) Session} (run : runs number)
    (found : begun.recordings[number]? = some recording) (holds : kept begun)
    (reached : (stage (Session.asides depth) number).Reaches recording.source
      ⟨target, recording.source.script, begun⟩ wait) : kept wait.state := by
  apply reached.keeps _ _ (List.Subset.refl _) holds
  · intro operations state among
    exact isKept.asides depth operations state (isKept.permitted begun number recording operations
      holds found (Source.mem_script_aside.mp among))
  · intro target frame state
    exact isKept.delivered _ number target frame state run trivial

theorem comesTo {first last : Session} (comes : ComesTo permits first last) (holds : kept first) :
    kept last := by
  induction comes with
  | refl => exact holds
  | performed depth operation permitted _ ih => exact isKept.perform depth permitted ih
  | noted depth operation permitted _ ih =>
      exact isKept.replied _ _ (isKept.perform depth permitted ih)
  | awaiting depth _ held found _ reached ih =>
      obtain ⟨run, started⟩ := isKept.started _ _ held ih
      exact isKept.reaches run (started_recordings found) started reached

end IsKept

namespace IsInvariant

variable {invariant : Session → Prop} (isInvariant : IsInvariant invariant)

include isInvariant

theorem isKept : IsKept (fun _ => True) (fun _ => True) (fun _ => True) invariant where
  permitted _ _ _ _ _ _ _ _ _ := trivial
  replied := isInvariant.replied
  instant aside operation session instant _ _ :=
    isInvariant.instant aside operation session instant
  started session number held holds := ⟨trivial, isInvariant.started session number held holds⟩
  delivered aside number target frame session _ _ :=
    isInvariant.delivered aside number target frame session
  concluded aside number fault session _ _ := isInvariant.concluded aside number fault session

/-- An invariant holds in every state that a session comes to. -/
theorem occurs {session : Session} (occurs : Occurs session) : invariant session := by
  obtain ⟨document, hasScheduler, logarithm, comes⟩ := occurs.comes
  exact isInvariant.isKept.comesTo comes (isInvariant.opened document hasScheduler logarithm)

end IsInvariant

/-- What is kept among the sessions of an invariant is kept together with it. -/
theorem IsKept.joined {known : Session → Prop} {permits : Operation → Prop}
    {runs : Nat → Prop} {kept : Session → Prop} (isKept : IsKept known permits runs kept)
    (isInvariant : IsInvariant known) :
    IsKept (fun _ => True) permits runs fun session => known session ∧ kept session where
  permitted session number recording operations holds :=
    isKept.permitted session number recording operations holds.2
  replied session replies holds :=
    ⟨isInvariant.replied session replies holds.1, isKept.replied session replies holds.2⟩
  instant aside operation session instant permitted _ holds :=
    ⟨isInvariant.instant aside operation session instant holds.1,
      isKept.instant aside operation session instant permitted holds.1 holds.2⟩
  started session number held holds :=
    ⟨(isKept.started session number held holds.2).1,
      isInvariant.started session number held holds.1,
      (isKept.started session number held holds.2).2⟩
  delivered aside number target frame session run _ holds :=
    ⟨isInvariant.delivered aside number target frame session holds.1,
      isKept.delivered aside number target frame session run holds.1 holds.2⟩
  concluded aside number fault session run _ holds :=
    ⟨isInvariant.concluded aside number fault session holds.1,
      isKept.concluded aside number fault session run holds.1 holds.2⟩

end Session

end Jianpu
