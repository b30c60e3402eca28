import Jianpu.Capture.Recorder
import Mathlib.Logic.Relation

/-! The capture loop by its turns. A run is a chain of turns from awaiting one
signal to awaiting the next, and then it ends in one of five ways. What every
turn keeps is kept by a run, and holds whenever an aside is performed. -/

set_option autoImplicit false

namespace Jianpu.Capture

open Number (Amount)

variable {ι σ : Type}

/-- Where a run stands while it awaits a signal: the block it writes to next, the
signals to come, and the state of its surroundings. -/
structure Wait (ι σ : Type) where
  target : Int
  signals : List (Signal ι)
  state : σ

/-- The signals of a source, which may fail before the first of them. -/
def Source.script (source : Source ι) : List (Signal ι) :=
  ((source.refusal.or source.unreadable).map Signal.failure).toList ++ source.signals

theorem Source.mem_script_aside {source : Source ι} {action : ι} :
    .aside action ∈ source.script ↔ .aside action ∈ source.signals := by
  simp [script]

/-- The asides that stand in front of the next detection or failure. -/
def asidesAhead : List (Signal ι) → List ι
  | .aside action :: rest => action :: asidesAhead rest
  | _ => []

namespace Stage

variable (stage : Stage ι σ) (source : Source ι)

/-- One turn of the loop: an aside is performed, or a detection is delivered and
there is a block to write to afterwards. -/
inductive Turn : Wait ι σ → Wait ι σ → Prop where
  | aside {target : Int} {action : ι} {rest : List (Signal ι)} {state : σ} :
      Turn ⟨target, .aside action :: rest, state⟩ ⟨target, rest, stage.aside action state⟩
  | frame {target next : Int} {frame : Frame Amount} {rest : List (Signal ι)}
      {state delivered : σ} :
      stage.exhausted source state = false →
      stage.deliver target frame state = (delivered, none) →
      stage.target? delivered = some next →
      Turn ⟨target, .frame frame :: rest, state⟩ ⟨next, rest, delivered⟩

/-- How the loop ends where it stands: the last state, and the fault if there is one. -/
inductive Ends : Wait ι σ → σ × Option CaptureFault → Prop where
  | silent {target : Int} {state : σ} : Ends ⟨target, [], state⟩ (state, none)
  | closed {target : Int} {signal : Signal ι} {rest : List (Signal ι)} {state : σ} :
      stage.exhausted source state = true → Ends ⟨target, signal :: rest, state⟩ (state, none)
  | failed {target : Int} {fault : CaptureFault} {rest : List (Signal ι)} {state : σ} :
      stage.exhausted source state = false →
      Ends ⟨target, .failure fault :: rest, state⟩ (state, some fault)
  | broken {target : Int} {frame : Frame Amount} {fault : CaptureFault}
      {rest : List (Signal ι)} {state delivered : σ} :
      stage.exhausted source state = false →
      stage.deliver target frame state = (delivered, some fault) →
      Ends ⟨target, .frame frame :: rest, state⟩ (delivered, some fault)
  | stopped {target : Int} {frame : Frame Amount} {rest : List (Signal ι)}
      {state delivered : σ} :
      stage.exhausted source state = false →
      stage.deliver target frame state = (delivered, none) →
      stage.target? delivered = none →
      Ends ⟨target, .frame frame :: rest, state⟩ (delivered, none)

/-- The places that a run comes to from where it stands. -/
def Reaches : Wait ι σ → Wait ι σ → Prop :=
  Relation.ReflTransGen (stage.Turn source)

variable {stage source}

theorem Turn.signals_subset {before after : Wait ι σ} (turn : stage.Turn source before after) :
    after.signals ⊆ before.signals := by
  cases turn <;> exact List.subset_cons_self _ _

theorem Reaches.signals_subset {before after : Wait ι σ}
    (reached : stage.Reaches source before after) : after.signals ⊆ before.signals := by
  induction reached with
  | refl => exact List.Subset.refl _
  | tail _ turn ih => exact List.Subset.trans turn.signals_subset ih

/-- A run goes on by turns to where it ends. -/
theorem await_reaches (target : Int) (signals : List (Signal ι)) (state : σ) :
    ∃ last, stage.Reaches source ⟨target, signals, state⟩ last ∧
      stage.Ends source last (stage.await source target signals state) := by
  induction signals generalizing target state with
  | nil => exact ⟨_, .refl, .silent⟩
  | cons signal rest ih =>
      cases signal with
      | aside action =>
          obtain ⟨last, reached, ends⟩ := ih target (stage.aside action state)
          exact ⟨last, .head .aside reached, ends⟩
      | failure fault =>
          rw [await]
          cases closed : stage.exhausted source state with
          | true => exact ⟨_, .refl, .closed closed⟩
          | false => exact ⟨_, .refl, .failed closed⟩
      | frame frame =>
          rw [await]
          cases closed : stage.exhausted source state with
          | true => exact ⟨_, .refl, .closed closed⟩
          | false =>
              cases outcome : stage.deliver target frame state with
              | mk delivered fault =>
                  cases fault with
                  | some fault => exact ⟨_, .refl, .broken closed outcome⟩
                  | none =>
                      cases next : stage.target? delivered with
                      | none =>
                          simp only [Bool.false_eq_true, ↓reduceIte, next]
                          exact ⟨_, .refl, .stopped closed outcome next⟩
                      | some target =>
                          obtain ⟨last, reached, ends⟩ := ih target delivered
                          simp only [Bool.false_eq_true, ↓reduceIte, next]
                          exact ⟨last, .head (.frame closed outcome next) reached, ends⟩

def outcome (stage : Stage ι σ) (final : σ) : Option CaptureFault → Except CaptureFault (List String)
  | some fault => .error fault
  | none => .ok (stage.recorder final).committed

theorem run_eq (state : σ) :
    stage.run source state =
      let begun := stage.withRecorder (stage.recorder state).start state
      let final := stage.stop (stage.consume source begun).1
      (final, stage.outcome final (stage.consume source begun).2) := by
  simp only [run]
  split <;> rename_i ended <;> rw [ended] <;> rfl

section Invariant

variable {invariant : σ → Prop} {signals : List (Signal ι)}
  (aside : ∀ action state, .aside action ∈ signals → invariant state →
    invariant (stage.aside action state))
  (deliver : ∀ target frame state, invariant state →
    invariant (stage.deliver target frame state).1)

include aside deliver

theorem Turn.keeps {before after : Wait ι σ} (turn : stage.Turn source before after)
    (among : before.signals ⊆ signals) (holds : invariant before.state) :
    invariant after.state := by
  cases turn with
  | aside => exact aside _ _ (among List.mem_cons_self) holds
  | @frame target _ frame _ state _ _ delivered _ =>
      have kept := deliver target frame state holds
      rw [delivered] at kept
      exact kept

theorem Reaches.keeps {before after : Wait ι σ} (reached : stage.Reaches source before after)
    (among : before.signals ⊆ signals) (holds : invariant before.state) :
    invariant after.state := by
  induction reached with
  | refl => exact holds
  | tail earlier turn ih =>
      exact turn.keeps aside deliver (List.Subset.trans (Reaches.signals_subset earlier) among) ih

omit aside in
theorem Ends.keeps {last : Wait ι σ} {result : σ × Option CaptureFault}
    (ends : stage.Ends source last result) (holds : invariant last.state) :
    invariant result.1 := by
  cases ends with
  | silent | closed | failed => exact holds
  | @broken target frame _ _ state _ _ delivered
  | @stopped target frame _ state _ _ delivered =>
      have kept := deliver target frame state holds
      rw [delivered] at kept
      exact kept

/-- What asides and detections keep is kept until the source has been consumed. -/
theorem consume_keeps (among : source.signals ⊆ signals) {state : σ} (holds : invariant state) :
    invariant (stage.consume source state).1 := by
  unfold consume
  split
  · exact holds
  · exact holds
  · rename_i target _ _
    split
    · exact holds
    · obtain ⟨last, reached, ends⟩ :=
        @await_reaches _ _ stage source target source.signals state
      exact ends.keeps deliver (reached.keeps aside deliver among holds)

end Invariant

/-! Runs that are stopped while they await a signal -/

/-- A run ends in the same way from every place that it comes to. -/
theorem Reaches.await_eq {before after : Wait ι σ} (reached : stage.Reaches source before after) :
    stage.await source before.target before.signals before.state =
      stage.await source after.target after.signals after.state := by
  induction reached with
  | refl => rfl
  | tail _ turn ih =>
      rw [ih]
      cases turn with
      | aside => rfl
      | frame goesOn delivered next => simp [await, goesOn, delivered, next]

theorem consume_eq {state : σ} {target : Int} (goesOn : stage.exhausted source state = false)
    (next : stage.target? state = some target) :
    stage.consume source state = stage.await source target source.script state := by
  unfold consume Source.script
  rw [next]
  cases source.refusal with
  | some fault => simp [await, goesOn]
  | none =>
      cases source.unreadable with
      | some fault => simp [await, goesOn]
      | none => rfl

/-- A source that has been closed leaves the asides up to the next detection. -/
theorem await_of_closed {closed : σ → Prop}
    (exhausted : ∀ state, closed state → stage.exhausted source state = true)
    {signals : List (Signal ι)}
    (aside : ∀ action state, .aside action ∈ signals → closed state →
      closed (stage.aside action state))
    (target : Int) {state : σ} (holds : closed state) :
    stage.await source target signals state =
      ((asidesAhead signals).foldl (fun state action => stage.aside action state) state, none) := by
  induction signals generalizing state with
  | nil => rfl
  | cons signal rest ih =>
      cases signal with
      | aside action =>
          have kept := aside action state List.mem_cons_self holds
          exact ih (fun other state member => aside other state (List.mem_cons_of_mem _ member)) kept
      | failure | frame => simp [await, exhausted state holds, asidesAhead]

/-- Signals without a detection leave the asides up to the first failure. -/
theorem await_without_frames {signals : List (Signal ι)}
    (silent : ∀ frame, .frame frame ∉ signals) (target : Int) (state : σ) :
    ∃ fault, stage.await source target signals state =
      ((asidesAhead signals).foldl (fun state action => stage.aside action state) state, fault) := by
  induction signals generalizing state with
  | nil => exact ⟨none, rfl⟩
  | cons signal rest ih =>
      cases signal with
      | aside action =>
          exact ih (fun frame member => silent frame (List.mem_cons_of_mem _ member)) _
      | frame frame => exact absurd List.mem_cons_self (silent frame)
      | failure fault =>
          rw [await]
          split
          · exact ⟨none, rfl⟩
          · exact ⟨some fault, rfl⟩

end Stage

end Jianpu.Capture
