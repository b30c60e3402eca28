import Jianpu.Capture.Detector
import Jianpu.Pitch.Frequency
import Jianpu.Proofs.Capture.Replay

/-! Detections that are answered. What the filter computes with is the time of a detection and
that of an earlier one, and the note of a frequency within its bounds. Where all of these can be
told, no detection breaks a capture off; those of a recording are such. -/

set_option autoImplicit false

namespace Jianpu

open Number (Amount Fault Measure)

/-! Any measure -/

namespace Capture.Filter

variable {α : Type} [Measure α] {filter : Filter α} {round : α → Except Fault Int}

/-- A pitch waits since a detection that was heard. -/
theorem since_of_candidate {frames : List (Frame α)} (sums : filter.Sums frames)
    {candidate : Candidate α} (waits : candidate ∈ (filter.stateAfter round frames).candidate) :
    ∃ frame ∈ frames, frame.time = candidate.since := by
  induction frames using List.reverseRecOn with
  | nil => cases waits
  | append_singleton before frame ih =>
      have step := step_snoc round sums
      have older : candidate ∈ (filter.stateAfter round before).candidate →
          ∃ other ∈ before ++ [frame], other.time = candidate.since := by
        intro waits
        obtain ⟨other, member, since⟩ := ih sums.left waits
        exact ⟨other, List.mem_append_left _ member, since⟩
      generalize filter.stateAfter round (before ++ [frame]) = next at step waits
      generalize filter.answer round before frame = answer at step
      cases step with
      | faint | refused | counted => cases waits
      | unplaced | sounding | waited => exact older waits
      | started =>
          cases waits
          exact ⟨frame, by simp, rfl⟩

theorem hearPitch_answers {state : State α} {time : α} (pitch : Int)
    (sum : ∃ deadline, Measure.plus time filter.refractoryPeriod = .ok deadline)
    (lasts : ∀ candidate ∈ state.candidate,
      ∃ elapsed, Measure.minus time candidate.since = .ok elapsed) :
    ∃ counts, (filter.hearPitch state pitch time).2 = .ok counts := by
  rw [hearPitch]
  split
  · exact ⟨_, rfl⟩
  · dsimp only
    split
    · exact ⟨_, rfl⟩
    · cases waiting : state.candidate with
      | none => exact ⟨_, rfl⟩
      | some candidate =>
          obtain ⟨elapsed, measured⟩ := lasts candidate waiting
          obtain ⟨deadline, due⟩ := sum
          dsimp only
          rw [measured, committed, due]
          split
          · exact ⟨_, rfl⟩
          · dsimp only
            split <;> exact ⟨_, rfl⟩

/-- A detection is answered where its sums, its distances and its note can be told. -/
theorem exists_answer {before : List (Frame α)} {frame : Frame α}
    (sums : filter.Sums (before ++ [frame]))
    (lasts : ∀ other ∈ before, ∃ elapsed, Measure.minus frame.time other.time = .ok elapsed)
    (placed : filter.credible frame = true → ∃ pitch, round frame.frequency = .ok pitch) :
    ∃ counted, filter.answer round before frame = .ok counted := by
  have waits : ∀ candidate ∈ (filter.stateAfter round before).candidate,
      ∃ elapsed, Measure.minus frame.time candidate.since = .ok elapsed := by
    intro candidate waits
    obtain ⟨other, member, since⟩ := since_of_candidate sums.left waits
    exact since ▸ lasts other member
  rw [answer, hear]
  split
  · rename_i clear
    obtain ⟨pitch, placed⟩ := placed clear
    obtain ⟨counts, answers⟩ := hearPitch_answers pitch (sums frame (by simp)) waits
    rw [placed]
    dsimp only
    rw [answers]
    exact ⟨_, rfl⟩
  · exact ⟨_, rfl⟩

end Capture.Filter

/-! Binary64 numbers -/

/-- The notes of all frequencies that the filter lets through can be told. -/
def Pitch.Logarithm.TellsNotes (logarithm : Pitch.Logarithm) : Prop :=
  ∀ frequency : Float, 60 < frequency → frequency < 2000 →
    ∃ pitch, Pitch.ofFrequency logarithm frequency = .ok pitch

/-- A logarithm that is that of 1 everywhere. It is all that the pitch needs which concerts are
tuned to. -/
def Pitch.Logarithm.ofOne : Pitch.Logarithm := fun _ => .ok 0

theorem Pitch.Logarithm.tellsNotes_ofOne : ofOne.TellsNotes := by
  have note : Number.Divisible.nearest (69 + 12 * (0 : Float)) = .ok 69 := by
    decide +kernel
  exact fun _ _ _ => ⟨69, note⟩

namespace Capture

/-- A detection in binary64 numbers, as a detector gives them. -/
def Frame.IsReal (frame : Frame Amount) : Prop :=
  ∃ time frequency clarity, frame = ⟨.real time, .real frequency, .real clarity⟩

theorem Filter.exists_pitch_of_credible {logarithm : Pitch.Logarithm}
    (tells : logarithm.TellsNotes) {frame : Frame Amount} (isReal : frame.IsReal)
    (clear : Filter.standard.credible frame = true) :
    ∃ pitch, Pitch.ofAmount logarithm frame.frequency = .ok pitch := by
  obtain ⟨time, frequency, clarity, rfl⟩ := isReal
  have least : Float.ofScientific 60 true 0 = 60 := by
    decide +kernel
  have greatest : Float.ofScientific 2000 true 0 = 2000 := by
    decide +kernel
  simp only [credible, standard, Measure.decimal, Measure.less, Amount.less, least, greatest,
    Bool.and_eq_true, decide_eq_true_eq] at clear
  exact tells frequency clear.1.2 clear.2

theorem Filter.exists_answer_of_real {logarithm : Pitch.Logarithm}
    (tells : logarithm.TellsNotes) {before : List (Frame Amount)} {frame : Frame Amount}
    (areReal : ∀ other ∈ before ++ [frame], other.IsReal) :
    ∃ counted, Filter.standard.answer (Pitch.ofAmount logarithm) before frame = .ok counted := by
  have isReal := areReal frame (by simp)
  refine exists_answer ?_ ?_ (exists_pitch_of_credible tells isReal)
  · intro other member
    obtain ⟨time, frequency, clarity, rfl⟩ := areReal other member
    exact ⟨_, rfl⟩
  · intro other member
    obtain ⟨time, frequency, clarity, rfl⟩ := isReal
    obtain ⟨earlier, _, _, rfl⟩ := areReal other (List.mem_append_left _ member)
    exact ⟨_, rfl⟩

/-! Recordings -/

/-- The detector of recordings tells the time of every frame. -/
theorem timeOf_standard (index : Nat) : ∃ time, ({} : Detector).timeOf index = .ok time := by
  have rate : ({} : Detector).sampleRate.toFloat?.isSome = true := by
    decide +kernel
  obtain ⟨rate, known⟩ := Option.isSome_iff_exists.mp rate
  have samples : ∃ samples, ({} : Detector).samplesUpTo index = .ok samples :=
    ⟨_, rfl⟩
  obtain ⟨samples, counted⟩ := samples
  refine ⟨samples / rate, ?_⟩
  rw [Detector.timeOf, counted, known]
  rfl

/-- Every estimate of a recording gives detections, all in binary64 numbers. -/
theorem exists_track (estimate : Estimate) :
    ∃ frames, ({} : Detector).track estimate = .ok frames ∧ ∀ frame ∈ frames, frame.IsReal := by
  have each : ∀ entries : List ((Float × Float) × Nat), ∃ frames : List (Frame Amount),
      entries.mapM (fun entry => do
        let time ← ({} : Detector).timeOf entry.2
        return (⟨.real time, .real (Detector.heardFrequency entry.1.1), .real entry.1.2⟩ :
          Frame Amount)) = Except.ok (ε := Fault) frames ∧ ∀ frame ∈ frames, frame.IsReal := by
    intro entries
    induction entries with
    | nil => exact ⟨[], rfl, nofun⟩
    | cons entry entries ih =>
        obtain ⟨frames, others, areReal⟩ := ih
        obtain ⟨time, told⟩ := timeOf_standard entry.2
        refine ⟨⟨.real time, .real (Detector.heardFrequency entry.1.1), .real entry.1.2⟩ :: frames,
          ?_, List.forall_mem_cons.mpr ⟨⟨_, _, _, rfl⟩, areReal⟩⟩
        rw [List.mapM_cons, told, others]
        rfl
  obtain ⟨time, told⟩ := timeOf_standard 0
  obtain ⟨frames, tracked, areReal⟩ := each (estimate.frequencies.zip estimate.voicing).zipIdx
  refine ⟨frames, ?_, areReal⟩
  rw [Detector.track, told]
  exact tracked

end Capture

end Jianpu
