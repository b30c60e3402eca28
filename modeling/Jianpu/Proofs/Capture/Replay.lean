import Jianpu.Capture.Filter
import Mathlib.Algebra.Order.Ring.Rat
import Mathlib.Data.List.Induction

/-! What the filter does to a sequence of detections, from its first state on:
the state it is left in, its answers, and the log of the pitches that counted.
Every law about its state is derived from one lemma for each way a detection
can be heard. -/

set_option autoImplicit false

namespace Jianpu

/-- What is above the second measure is above the first. Of exact rationals,
and of binary64 numbers that are numbers, this is the order. -/
def Number.Measure.AtMost {α : Type} [Number.Measure α] (lower upper : α) : Prop :=
  ∀ bound, Number.Measure.less upper bound = true → Number.Measure.less lower bound = true

theorem Number.Measure.atMost_rat_iff {lower upper : Rat} :
    Number.Measure.AtMost lower upper ↔ lower ≤ upper := by
  simp only [Number.Measure.AtMost, Number.Measure.less, decide_eq_true_eq]
  constructor
  · intro above
    by_contra below
    exact lt_irrefl lower (above lower (lt_of_not_ge below))
  · intro ordered bound above
    exact lt_of_le_of_lt ordered above

namespace Capture.Filter

open Number (Measure Fault)

variable {α : Type}

/-- The entry of an answer in the log: the pitch that counted and its time. -/
def logged (time : α) : Except Fault (Option Int) → List (Int × α)
  | .ok (some pitch) => [(pitch, time)]
  | _ => []

theorem logged_eq_nil_iff {time : α} {answer : Except Fault (Option Int)} :
    logged time answer = [] ↔ ∀ counted, answer ≠ .ok (some counted) := by
  unfold logged
  split <;> simp_all

variable [Measure α]

/-- A detection that is credible and rounds to a pitch. -/
def Hears (filter : Filter α) (round : α → Except Fault Int) (pitch : Int) (frame : Frame α) :
    Prop :=
  filter.credible frame = true ∧ round frame.frequency = .ok pitch

/-- From the first time to the second is longer than the stability window. -/
def LongSince (filter : Filter α) (since time : α) : Prop :=
  ∃ elapsed, Measure.minus time since = .ok elapsed ∧
    Measure.less filter.stabilityWindow elapsed = true

/-- The state after detections and the log of what counted among them. -/
def replay (filter : Filter α) (round : α → Except Fault Int) (frames : List (Frame α)) :
    State α × List (Int × α) :=
  frames.foldl (fun before frame =>
    let (state, answer) := filter.hear round before.1 frame
    (state, before.2 ++ logged frame.time answer)) ({}, [])

/-- The state after detections. -/
def stateAfter (filter : Filter α) (round : α → Except Fault Int) (frames : List (Frame α)) :
    State α :=
  (filter.replay round frames).1

/-- The pitches that counted among detections, each with its time. -/
def commits (filter : Filter α) (round : α → Except Fault Int) (frames : List (Frame α)) :
    List (Int × α) :=
  (filter.replay round frames).2

/-- The answer to a detection that follows others. -/
def answer (filter : Filter α) (round : α → Except Fault Int) (before : List (Frame α))
    (frame : Frame α) : Except Fault (Option Int) :=
  (filter.hear round (filter.stateAfter round before) frame).2

/-- The refractory rule: the pitch is the last that counted, and the period
after that is not over. -/
def Refuses (filter : Filter α) (round : α → Except Fault Int) (before : List (Frame α))
    (pitch : Int) (frame : Frame α) : Prop :=
  ∃ time deadline, (filter.commits round before).getLast? = some (pitch, time) ∧
    Measure.plus time filter.refractoryPeriod = .ok deadline ∧
    Measure.less frame.time deadline = true

section Step

variable {filter : Filter α} {round : α → Except Fault Int} {state : State α} {pitch : Int}
  {frame : Frame α}

theorem hear_of_faint (faint : filter.credible frame = false) :
    filter.hear round state frame = (interrupted state, .ok none) := by
  simp [hear, faint]

private theorem hear_of_hears (heard : filter.Hears round pitch frame) :
    filter.hear round state frame =
      ((filter.hearPitch state pitch frame.time).1,
        (filter.hearPitch state pitch frame.time).2.map fun counts =>
          if counts then some pitch else none) := by
  simp [hear, heard.1, heard.2]

/-- The refractory rule asks for the last pitch that counted only. -/
private theorem refused_congr (state : State α) (pitch : Int) (time : α)
    (candidate : Option (Candidate α)) (held : Option Int) :
    refused ⟨candidate, held, state.last⟩ pitch time = refused state pitch time := rfl

theorem hear_of_held (heard : filter.Hears round pitch frame) (held : state.held = some pitch) :
    filter.hear round state frame = (state, .ok none) := by
  rw [hear_of_hears heard]
  simp [hearPitch, held, Except.map]

theorem hear_of_refused (heard : filter.Hears round pitch frame)
    (released : state.held ≠ some pitch) (isRefused : refused state pitch frame.time = true) :
    filter.hear round state frame = ({ state with candidate := none, held := none }, .ok none) := by
  rw [hear_of_hears heard]
  have same := refused_congr state pitch frame.time
  simp [hearPitch, released, same, isRefused, Except.map]

theorem hear_of_fresh (heard : filter.Hears round pitch frame)
    (released : state.held ≠ some pitch) (allowed : refused state pitch frame.time = false)
    (fresh : ∀ candidate ∈ state.candidate, candidate.pitch ≠ pitch) :
    filter.hear round state frame =
      ({ state with candidate := some ⟨pitch, frame.time⟩, held := none }, .ok none) := by
  rw [hear_of_hears heard]
  have same := refused_congr state pitch frame.time
  cases waiting : state.candidate with
  | none => simp [hearPitch, released, same, allowed, waiting, Except.map]
  | some candidate =>
      have other : candidate.pitch ≠ pitch := fresh candidate waiting
      simp [hearPitch, released, same, allowed, waiting, other, Except.map]

/-- A candidate goes on waiting, also when the time it waits cannot be told. -/
theorem hear_of_waiting {since : α} (heard : filter.Hears round pitch frame)
    (released : state.held ≠ some pitch) (allowed : refused state pitch frame.time = false)
    (waiting : state.candidate = some ⟨pitch, since⟩)
    (short : ¬ filter.LongSince since frame.time) :
    ∃ answer, filter.hear round state frame = ({ state with held := none }, answer) ∧
      ∀ counted, answer ≠ .ok (some counted) := by
  rw [hear_of_hears heard]
  have same := refused_congr state pitch frame.time
  cases elapsed : Measure.minus frame.time since with
  | error fault =>
      exact ⟨.error fault, by simp [hearPitch, released, same, allowed, waiting, elapsed,
        Except.map], by simp⟩
  | ok duration =>
      have within : ¬ Measure.less filter.stabilityWindow duration = true :=
        fun long => short ⟨duration, elapsed, long⟩
      exact ⟨.ok none, by simp [hearPitch, released, same, allowed, waiting, elapsed, within,
        Except.map], by simp⟩

theorem hear_of_long {since deadline : α} (heard : filter.Hears round pitch frame)
    (released : state.held ≠ some pitch) (allowed : refused state pitch frame.time = false)
    (waiting : state.candidate = some ⟨pitch, since⟩)
    (long : filter.LongSince since frame.time)
    (due : Measure.plus frame.time filter.refractoryPeriod = .ok deadline) :
    filter.hear round state frame =
      ({ held := some pitch, last := some ⟨pitch, deadline⟩ }, .ok (some pitch)) := by
  rw [hear_of_hears heard]
  have same := refused_congr state pitch frame.time
  obtain ⟨elapsed, measured, long⟩ := long
  simp [hearPitch, released, same, allowed, waiting, measured, long, committed, due, Except.map]

/-- What a detection can do to a state whose refractory periods can be told. The
fields say all that later states depend on. -/
inductive Step (filter : Filter α) (round : α → Except Fault Int) (state : State α)
    (frame : Frame α) : State α → Except Fault (Option Int) → Prop where
  | faint : filter.credible frame = false →
      Step filter round state frame (interrupted state) (.ok none)
  | unplaced {fault : Fault} :
      filter.credible frame = true → round frame.frequency = .error fault →
      Step filter round state frame state (.error fault)
  | sounding {pitch : Int} :
      filter.Hears round pitch frame → state.held = some pitch →
      Step filter round state frame state (.ok none)
  | refused {pitch : Int} :
      filter.Hears round pitch frame → Filter.refused state pitch frame.time = true →
      Step filter round state frame { state with candidate := none, held := none } (.ok none)
  | started {pitch : Int} :
      filter.Hears round pitch frame → Filter.refused state pitch frame.time = false →
      Step filter round state frame
        { state with candidate := some ⟨pitch, frame.time⟩, held := none } (.ok none)
  | waited {pitch : Int} {since : α} {answer : Except Fault (Option Int)} :
      filter.Hears round pitch frame → state.candidate = some ⟨pitch, since⟩ →
      (∀ counted, answer ≠ .ok (some counted)) →
      Step filter round state frame { state with held := none } answer
  | counted {pitch : Int} {since deadline : α} :
      filter.Hears round pitch frame → Filter.refused state pitch frame.time = false →
      state.candidate = some ⟨pitch, since⟩ → filter.LongSince since frame.time →
      Measure.plus frame.time filter.refractoryPeriod = .ok deadline →
      Step filter round state frame { held := some pitch, last := some ⟨pitch, deadline⟩ }
        (.ok (some pitch))

theorem hear_step (state : State α)
    (sum : ∃ deadline, Measure.plus frame.time filter.refractoryPeriod = .ok deadline) :
    Step filter round state frame (filter.hear round state frame).1
      (filter.hear round state frame).2 := by
  cases clear : filter.credible frame with
  | false =>
      rw [hear_of_faint clear]
      exact .faint clear
  | true =>
      cases placed : round frame.frequency with
      | error fault =>
          have same : filter.hear round state frame = (state, .error fault) := by
            simp [hear, clear, placed]
          rw [same]
          exact .unplaced clear placed
      | ok pitch =>
          have heard : filter.Hears round pitch frame := ⟨clear, placed⟩
          by_cases held : state.held = some pitch
          · rw [hear_of_held heard held]
            exact .sounding heard held
          · cases barred : Filter.refused state pitch frame.time with
            | true =>
                rw [hear_of_refused heard held barred]
                exact .refused heard barred
            | false =>
                by_cases fresh : ∀ candidate ∈ state.candidate, candidate.pitch ≠ pitch
                · rw [hear_of_fresh heard held barred fresh]
                  exact .started heard barred
                · simp only [not_forall, not_not] at fresh
                  obtain ⟨⟨_, since⟩, waiting, rfl⟩ := fresh
                  by_cases long : filter.LongSince since frame.time
                  · obtain ⟨deadline, due⟩ := sum
                    rw [hear_of_long heard held barred waiting long due]
                    exact .counted heard barred waiting long due
                  · obtain ⟨answer, same, silent⟩ := hear_of_waiting heard held barred waiting long
                    rw [same]
                    exact .waited heard waiting silent

end Step

section Replay

variable {filter : Filter α} {round : α → Except Fault Int} {before : List (Frame α)}
  {frame : Frame α}

theorem stateAfter_snoc (before : List (Frame α)) (frame : Frame α) :
    filter.stateAfter round (before ++ [frame]) =
      (filter.hear round (filter.stateAfter round before) frame).1 := by
  simp [stateAfter, replay]

/-- What a detection does to the state and what it is answered, in one. -/
theorem hear_stateAfter (filter : Filter α) (round : α → Except Fault Int)
    (before : List (Frame α)) (frame : Frame α) :
    filter.hear round (filter.stateAfter round before) frame =
      (filter.stateAfter round (before ++ [frame]), filter.answer round before frame) := by
  rw [stateAfter_snoc]
  rfl

theorem commits_snoc (filter : Filter α) (round : α → Except Fault Int) (before : List (Frame α))
    (frame : Frame α) :
    filter.commits round (before ++ [frame]) =
      filter.commits round before ++ logged frame.time (filter.answer round before frame) := by
  simp [commits, answer, stateAfter, replay]

/-- The detections whose refractory periods can be told, as those of exact
rationals and of binary64 numbers. -/
def Sums (filter : Filter α) (frames : List (Frame α)) : Prop :=
  ∀ frame ∈ frames, ∃ deadline, Measure.plus frame.time filter.refractoryPeriod = .ok deadline

theorem Sums.left {filter : Filter α} {frames more : List (Frame α)}
    (sums : filter.Sums (frames ++ more)) : filter.Sums frames :=
  fun frame member => sums frame (List.mem_append_left more member)

/-- Induction over what is heard: the last detection takes a step. -/
theorem step_snoc (round : α → Except Fault Int) (sums : filter.Sums (before ++ [frame])) :
    Step filter round (filter.stateAfter round before) frame
      (filter.stateAfter round (before ++ [frame])) (filter.answer round before frame) := by
  rw [stateAfter_snoc]
  exact hear_step _ (sums frame (by simp))

/-- A pitch that is held is no candidate, and there is no other. -/
theorem candidate_of_held {frames : List (Frame α)} {pitch : Int} (sums : filter.Sums frames)
    (held : (filter.stateAfter round frames).held = some pitch) :
    (filter.stateAfter round frames).candidate = none := by
  induction frames using List.reverseRecOn with
  | nil => rfl
  | append_singleton before frame ih =>
      have step := step_snoc round sums
      generalize filter.stateAfter round (before ++ [frame]) = next at step held ⊢
      generalize filter.answer round before frame = answer at step
      cases step with
      | faint | refused | counted => rfl
      | unplaced | sounding => exact ih sums.left held
      | started | waited => cases held

/-- The deadline that is kept is that of the last entry of the log. -/
theorem last_tracks_commits (round : α → Except Fault Int) {frames : List (Frame α)}
    (sums : filter.Sums frames) :
    Option.Rel (fun entry last => last.pitch = entry.1 ∧
        Measure.plus entry.2 filter.refractoryPeriod = .ok last.deadline)
      (filter.commits round frames).getLast? (filter.stateAfter round frames).last := by
  induction frames using List.reverseRecOn with
  | nil => exact .none
  | append_singleton before frame ih =>
      have step := step_snoc round sums
      have kept := ih sums.left
      generalize filter.stateAfter round (before ++ [frame]) = next at step ⊢
      rw [commits_snoc]
      generalize filter.answer round before frame = answer at step ⊢
      cases step with
      | counted heard allowed waiting long due =>
          rw [logged, List.getLast?_concat]
          exact .some ⟨rfl, due⟩
      | waited heard waiting silent =>
          rw [logged_eq_nil_iff.mpr silent, List.append_nil]
          exact kept
      | faint | unplaced | sounding | refused | started =>
          rw [logged_eq_nil_iff.mpr (by simp), List.append_nil]
          exact kept

/-- The refractory rule of the state is that of the log. -/
theorem refused_iff_refuses (round : α → Except Fault Int) {frames : List (Frame α)}
    (sums : filter.Sums frames) (pitch : Int) (frame : Frame α) :
    refused (filter.stateAfter round frames) pitch frame.time = true ↔
      filter.Refuses round frames pitch frame := by
  have tracked := last_tracks_commits round sums
  unfold refused Refuses
  generalize (filter.stateAfter round frames).last = last at tracked
  generalize (filter.commits round frames).getLast? = entry at tracked
  cases tracked with
  | none => simp
  | some related =>
      rename_i entry last
      obtain ⟨time, deadline⟩ := entry
      obtain ⟨samePitch, due⟩ := related
      simp only [Bool.and_eq_true, beq_iff_eq, Option.some.injEq, Prod.mk.injEq]
      constructor
      · rintro ⟨same, early⟩
        exact ⟨deadline, last.deadline, ⟨samePitch.symm.trans same.symm, rfl⟩, due, early⟩
      · rintro ⟨time, otherDeadline, ⟨same, rfl⟩, otherDue, early⟩
        have deadlines := Except.ok.inj (due.symm.trans otherDue)
        exact ⟨same.symm.trans samePitch.symm, deadlines ▸ early⟩

end Replay

end Capture.Filter

end Jianpu
