import Jianpu.Proofs.Capture.Replay
import Mathlib.Tactic.NormNum

/-! A sustained tone gives exactly one note. A run of detections of one pitch
goes through three phases: the refractory rule refuses it, a first detection
waits for the stability window to pass, and then the pitch is held. Only the
step from the second phase to the third counts. -/

set_option autoImplicit false

namespace Jianpu.Capture.Filter

open Number (Measure Fault)

variable {α : Type} [Measure α]

/-- The first detection of a run that the refractory rule does not refuse, and
the refused ones in front of it. -/
def StartsRun (filter : Filter α) (round : α → Except Fault Int) (before : List (Frame α))
    (pitch : Int) (skipped : List (Frame α)) (start : Frame α) : Prop :=
  (∀ earlier frame later, skipped = earlier ++ frame :: later →
    filter.Refuses round (before ++ earlier) pitch frame) ∧
  ¬ filter.Refuses round (before ++ skipped) pitch start

/-- A detection that is the first of its run, after the run's start, to come
later than the stability window allows. -/
def CountsAfter (filter : Filter α) (round : α → Except Fault Int) (before : List (Frame α))
    (pitch : Int) (earlier : List (Frame α)) (frame : Frame α) : Prop :=
  ∃ skipped start waiting, earlier = skipped ++ start :: waiting ∧
    filter.StartsRun round before pitch skipped start ∧
    (∀ other ∈ waiting, ¬ filter.LongSince start.time other.time) ∧
    filter.LongSince start.time frame.time

/-- A state that knows nothing of a pitch but when it last counted. -/
def Fresh (state : State α) (pitch : Int) : Prop :=
  state.held ≠ some pitch ∧ ∀ candidate ∈ state.candidate, candidate.pitch ≠ pitch

variable {filter : Filter α} {round : α → Except Fault Int} {before earlier : List (Frame α)}
  {pitch : Int} {frame : Frame α}

theorem StartsRun.unique {skipped others rest otherRest : List (Frame α)} {start other : Frame α}
    (first : filter.StartsRun round before pitch skipped start)
    (second : filter.StartsRun round before pitch others other)
    (same : skipped ++ start :: rest = others ++ other :: otherRest) :
    skipped = others ∧ start = other ∧ rest = otherRest := by
  rcases List.append_eq_append_iff.mp same with
    ⟨middle, split, tail⟩ | ⟨middle, split, tail⟩
  · cases middle with
    | nil => exact ⟨by simpa using split.symm, List.cons.inj tail⟩
    | cons head middle =>
        obtain ⟨rfl, -⟩ := List.cons.inj tail
        exact absurd (second.1 skipped start middle split) first.2
  · cases middle with
    | nil =>
        obtain ⟨heads, tails⟩ := List.cons.inj tail
        exact ⟨by simpa using split, heads.symm, tails.symm⟩
    | cons head middle =>
        obtain ⟨rfl, -⟩ := List.cons.inj tail
        exact absurd (first.1 others other middle split) second.2

theorem StartsRun.countsAfter_iff {skipped waiting : List (Frame α)} {start : Frame α}
    (starts : filter.StartsRun round before pitch skipped start) :
    filter.CountsAfter round before pitch (skipped ++ start :: waiting) frame ↔
      (∀ other ∈ waiting, ¬ filter.LongSince start.time other.time) ∧
        filter.LongSince start.time frame.time := by
  constructor
  · rintro ⟨others, other, rest, split, otherStarts, short, long⟩
    obtain ⟨-, rfl, rfl⟩ := starts.unique otherStarts split
    exact ⟨short, long⟩
  · rintro ⟨short, long⟩
    exact ⟨skipped, start, waiting, rfl, starts, short, long⟩

theorem not_countsAfter_of_refused
    (all : ∀ prior frame later, earlier = prior ++ frame :: later →
      filter.Refuses round (before ++ prior) pitch frame) :
    ¬ filter.CountsAfter round before pitch earlier frame := by
  rintro ⟨skipped, start, waiting, split, starts, -⟩
  exact starts.2 (all skipped start waiting split)

theorem refused_of_atMost {state : State α} {early late : α}
    (allowed : refused state pitch early = false) (ordered : Measure.AtMost early late) :
    refused state pitch late = false := by
  unfold refused at allowed ⊢
  split
  · rename_i last known
    rw [known] at allowed
    by_contra stillRefused
    simp only [Bool.and_eq_false_iff, not_or, Bool.not_eq_false] at stillRefused allowed
    rcases allowed with otherPitch | expired
    · rw [stillRefused.1] at otherPitch
      cases otherPitch
    · rw [ordered _ stillRefused.2] at expired
      cases expired
  · rfl

/-- Before a run of a pitch nothing is left of an older run of it. -/
theorem fresh_before (sums : filter.Sums before)
    (placed : ∀ frame ∈ before, filter.credible frame = true →
      ∃ pitch, round frame.frequency = .ok pitch)
    (begins : ∀ frame ∈ before.getLast?, ¬ filter.Hears round pitch frame) :
    Fresh (filter.stateAfter round before) pitch := by
  rcases List.eq_nil_or_concat before with rfl | ⟨before, frame, split⟩
  · exact ⟨by simp [stateAfter, replay], by simp [stateAfter, replay]⟩
  · rw [List.concat_eq_append] at split
    subst split
    have other : ¬ filter.Hears round pitch frame := begins frame (by simp)
    have step := step_snoc round sums
    generalize filter.stateAfter round (before ++ [frame]) = next at step ⊢
    generalize filter.answer round before frame = answer at step
    cases step with
    | faint | refused => exact ⟨by simp [interrupted], by simp [interrupted]⟩
    | unplaced clear missing =>
        obtain ⟨_, found⟩ := placed frame (by simp) clear
        rw [missing] at found
        cases found
    | sounding heard held =>
        refine ⟨?_, by simp [candidate_of_held sums.left held]⟩
        rw [held]
        rintro ⟨⟩
        exact other heard
    | started heard allowed =>
        refine ⟨by simp, ?_⟩
        rintro candidate ⟨⟩ rfl
        exact other heard
    | waited heard waiting silent =>
        refine ⟨by simp, ?_⟩
        intro candidate member same
        rw [waiting] at member
        cases member
        exact other (same ▸ heard)
    | counted heard =>
        refine ⟨?_, by simp⟩
        rintro ⟨⟩
        exact other heard

/-- How far a run has come, and the state that goes with it. -/
inductive Phase (filter : Filter α) (round : α → Except Fault Int) (before : List (Frame α))
    (pitch : Int) : (earlier : List (Frame α)) → State α → Prop where
  | refused {earlier : List (Frame α)} {state : State α} :
      (∀ prior frame later, earlier = prior ++ frame :: later →
        filter.Refuses round (before ++ prior) pitch frame) →
      Fresh state pitch → Phase filter round before pitch earlier state
  | waiting {skipped waiting : List (Frame α)} {start : Frame α} {state : State α} :
      filter.StartsRun round before pitch skipped start →
      (∀ other ∈ waiting, ¬ filter.LongSince start.time other.time) →
      state.held ≠ some pitch → state.candidate = some ⟨pitch, start.time⟩ →
      Filter.refused state pitch start.time = false →
      Phase filter round before pitch (skipped ++ start :: waiting) state
  | held {skipped waiting : List (Frame α)} (later : List (Frame α)) {start frame : Frame α}
      {state : State α} :
      filter.StartsRun round before pitch skipped start →
      filter.LongSince start.time frame.time → state.held = some pitch →
      Phase filter round before pitch (skipped ++ start :: (waiting ++ frame :: later)) state

/-- What one more detection of a run comes to: the run is in a phase again, and the detection
counts when it should. -/
def Advances (filter : Filter α) (round : α → Except Fault Int) (before : List (Frame α))
    (pitch : Int) (earlier : List (Frame α)) (state : State α) (frame : Frame α) : Prop :=
  Phase filter round before pitch (earlier ++ [frame]) (filter.hear round state frame).1 ∧
    ∀ counted, (filter.hear round state frame).2 = .ok (some counted) ↔
      counted = pitch ∧ filter.CountsAfter round before pitch earlier frame

/-! A step in each phase of a run -/

section Advances

variable {state : State α} (heard : filter.Hears round pitch frame)

include heard

theorem advances_of_refused
    (rule : Filter.refused state pitch frame.time = true ↔
      filter.Refuses round (before ++ earlier) pitch frame)
    (all : ∀ prior frame later, earlier = prior ++ frame :: later →
      filter.Refuses round (before ++ prior) pitch frame)
    (fresh : Fresh state pitch) : Advances filter round before pitch earlier state frame := by
  have never : ¬ filter.CountsAfter round before pitch earlier frame :=
    not_countsAfter_of_refused all
  unfold Advances
  cases barred : Filter.refused state pitch frame.time with
  | true =>
      rw [hear_of_refused heard fresh.1 barred]
      refine ⟨.refused ?_ ⟨by simp, by simp⟩, by simp [never]⟩
      intro prior other later split
      rcases List.eq_nil_or_concat later with rfl | ⟨later, last, ends⟩
      · obtain ⟨rfl, ⟨⟩⟩ := List.append_inj' split rfl
        exact rule.mp barred
      · rw [ends, List.concat_eq_append] at split
        have shorter : earlier ++ [frame] = (prior ++ other :: later) ++ [last] := by
          simpa using split
        exact all prior other later (List.append_inj' shorter rfl).1
  | false =>
      rw [hear_of_fresh heard fresh.1 barred fresh.2]
      have starts : filter.StartsRun round before pitch earlier frame :=
        ⟨all, fun refuses => by simp [rule.mpr refuses] at barred⟩
      exact ⟨.waiting starts (by simp) (by simp) rfl barred, by simp [never]⟩

section Started

variable {skipped waiting : List (Frame α)} {start : Frame α}
  (starts : filter.StartsRun round before pitch skipped start)

include starts

theorem advances_of_long (short : ∀ other ∈ waiting, ¬ filter.LongSince start.time other.time)
    (released : state.held ≠ some pitch) (candidate : state.candidate = some ⟨pitch, start.time⟩)
    (allowed : Filter.refused state pitch frame.time = false)
    (long : filter.LongSince start.time frame.time)
    (sum : ∃ deadline, Measure.plus frame.time filter.refractoryPeriod = .ok deadline) :
    Advances filter round before pitch (skipped ++ start :: waiting) state frame := by
  obtain ⟨deadline, due⟩ := sum
  have counts : filter.CountsAfter round before pitch (skipped ++ start :: waiting) frame :=
    starts.countsAfter_iff.mpr ⟨short, long⟩
  rw [Advances, hear_of_long heard released allowed candidate long due]
  refine ⟨?_, by simp [counts, eq_comm]⟩
  simpa using Phase.held [] starts long rfl

theorem advances_of_short (short : ∀ other ∈ waiting, ¬ filter.LongSince start.time other.time)
    (released : state.held ≠ some pitch) (candidate : state.candidate = some ⟨pitch, start.time⟩)
    (allowed : Filter.refused state pitch start.time = false)
    (stillAllowed : Filter.refused state pitch frame.time = false)
    (soon : ¬ filter.LongSince start.time frame.time) :
    Advances filter round before pitch (skipped ++ start :: waiting) state frame := by
  obtain ⟨answer, same, silent⟩ := hear_of_waiting heard released stillAllowed candidate soon
  have never : ¬ filter.CountsAfter round before pitch (skipped ++ start :: waiting) frame :=
    fun counts => soon (starts.countsAfter_iff.mp counts).2
  rw [Advances, same]
  refine ⟨?_, fun counted => by simp [never, silent counted]⟩
  have more : ∀ other ∈ waiting ++ [frame], ¬ filter.LongSince start.time other.time := by
    intro other member
    rcases List.mem_append.mp member with member | member
    · exact short other member
    · rw [List.mem_singleton.mp member]
      exact soon
  have silenced : ({ state with held := none } : State α).held ≠ some pitch := by simp
  simpa using Phase.waiting starts more silenced candidate allowed

theorem advances_of_held {first : Frame α} {later : List (Frame α)}
    (long : filter.LongSince start.time first.time) (held : state.held = some pitch) :
    Advances filter round before pitch (skipped ++ start :: (waiting ++ first :: later)) state
      frame := by
  have never : ¬ filter.CountsAfter round before pitch
      (skipped ++ start :: (waiting ++ first :: later)) frame :=
    fun counts => (starts.countsAfter_iff.mp counts).1 first (by simp) long
  rw [Advances, hear_of_held heard held]
  refine ⟨?_, by simp [never]⟩
  simpa using Phase.held (later ++ [frame]) starts long held

end Started

end Advances

/-- One more detection of the run. It can count in the waiting phase only: before it there is no
start to wait from, and after it an earlier detection has counted. -/
theorem Phase.step (sums : filter.Sums (before ++ earlier ++ [frame]))
    (ordered : ∀ other ∈ earlier, Measure.AtMost other.time frame.time)
    (heard : filter.Hears round pitch frame)
    (phase : Phase filter round before pitch earlier
      (filter.stateAfter round (before ++ earlier))) :
    Advances filter round before pitch earlier (filter.stateAfter round (before ++ earlier))
      frame := by
  have rule := refused_iff_refuses round sums.left pitch frame
  generalize filter.stateAfter round (before ++ earlier) = state at phase rule ⊢
  cases phase with
  | refused all fresh => exact advances_of_refused heard rule all fresh
  | @waiting skipped waiting start _ starts short released candidate allowed =>
      have stillAllowed := refused_of_atMost allowed (ordered start (by simp))
      by_cases long : filter.LongSince start.time frame.time
      · exact advances_of_long heard starts short released candidate stillAllowed long
          (sums frame (by simp))
      · exact advances_of_short heard starts short released candidate allowed stillAllowed long
  | held later starts long held => exact advances_of_held heard starts long held

/-! Whole runs -/

/-- Every part of a run from its first detection on is in a phase. -/
theorem Phase.of_run (sums : filter.Sums (before ++ earlier))
    (ordered : earlier.Pairwise fun first second => Measure.AtMost first.time second.time)
    (sounds : ∀ frame ∈ earlier, filter.Hears round pitch frame)
    (fresh : Fresh (filter.stateAfter round before) pitch) :
    Phase filter round before pitch earlier (filter.stateAfter round (before ++ earlier)) := by
  induction earlier using List.reverseRecOn with
  | nil => exact .refused (by simp) (by simpa using fresh)
  | append_singleton earlier frame ih =>
      rw [← List.append_assoc] at sums ⊢
      rw [List.pairwise_append] at ordered
      have phase := ih sums.left ordered.1 (fun other member => sounds other (by simp [member]))
      rw [stateAfter_snoc]
      exact (phase.step sums (fun other member => ordered.2.2 other member frame (by simp))
        (sounds frame (by simp))).1

theorem CountsAfter.unique {other : List (Frame α)} {second : Frame α}
    {rest otherRest : List (Frame α)}
    (first : filter.CountsAfter round before pitch earlier frame)
    (again : filter.CountsAfter round before pitch other second)
    (same : earlier ++ frame :: rest = other ++ second :: otherRest) : earlier = other := by
  obtain ⟨skipped, start, waiting, rfl, starts, short, long⟩ := first
  obtain ⟨otherSkipped, otherStart, otherWaiting, rfl, otherStarts, otherShort, otherLong⟩ := again
  have texts : skipped ++ start :: (waiting ++ frame :: rest) =
      otherSkipped ++ otherStart :: (otherWaiting ++ second :: otherRest) := by simpa using same
  obtain ⟨rfl, rfl, tails⟩ := starts.unique otherStarts texts
  rcases List.append_eq_append_iff.mp tails with
    ⟨middle, split, tail⟩ | ⟨middle, split, tail⟩
  · cases middle with
    | nil => simp [split]
    | cons head middle =>
        obtain ⟨rfl, -⟩ := List.cons.inj tail
        exact absurd long (otherShort frame (by simp [split]))
  · cases middle with
    | nil => simp [split]
    | cons head middle =>
        obtain ⟨rfl, -⟩ := List.cons.inj tail
        exact absurd otherLong (short second (by simp [split]))

/-- In a run of detections of one pitch that no such detection precedes, at most
one counts. It counts as that pitch, and it is the first to come later than the
stability window allows after the first that the refractory rule does not
refuse. A detection that is not credible never counts. -/
theorem sustained_tone_counts_once (filter : Filter α) (round : α → Except Fault Int)
    (floor : Measure.AtMost (Measure.decimal 0 0) filter.minFrequency)
    (rounds : ∀ frequency, Measure.less (Measure.decimal 0 0) frequency = true →
      Measure.less frequency filter.maxFrequency = true → ∃ pitch, round frequency = .ok pitch)
    (before run : List (Frame α)) (sums : filter.Sums (before ++ run))
    (ordered : (before ++ run).Pairwise fun first second =>
      Measure.AtMost first.time second.time)
    (pitch : Int) (sounds : ∀ frame ∈ run, filter.Hears round pitch frame)
    (begins : ∀ frame ∈ before.getLast?, ¬ filter.Hears round pitch frame) :
    (∀ earlier frame later, run = earlier ++ frame :: later → ∀ counted,
      filter.answer round (before ++ earlier) frame = .ok (some counted) ↔
        counted = pitch ∧ filter.CountsAfter round before pitch earlier frame) ∧
    (∀ earlier frame later, run = earlier ++ frame :: later →
      ∀ other second rest, run = other ++ second :: rest → ∀ counted again,
        filter.answer round (before ++ earlier) frame = .ok (some counted) →
        filter.answer round (before ++ other) second = .ok (some again) → earlier = other) ∧
    ∀ history frame, filter.credible frame = false →
      filter.answer round history frame = .ok none := by
  have placed : ∀ frame ∈ before, filter.credible frame = true →
      ∃ pitch, round frame.frequency = .ok pitch := by
    intro frame _ clear
    simp only [credible, Bool.and_eq_true] at clear
    exact rounds frame.frequency (floor frame.frequency clear.1.2) clear.2
  have fresh := fresh_before sums.left placed begins
  have counts : ∀ earlier frame later, run = earlier ++ frame :: later → ∀ counted,
      filter.answer round (before ++ earlier) frame = .ok (some counted) ↔
        counted = pitch ∧ filter.CountsAfter round before pitch earlier frame := by
    rintro earlier frame later rfl
    have upTo : filter.Sums (before ++ earlier ++ [frame]) := by
      refine Sums.left (?_ : filter.Sums (before ++ earlier ++ [frame] ++ later))
      simpa using sums
    have inOrder := (List.pairwise_append.mp ordered).2.1
    rw [List.pairwise_append] at inOrder
    have phase := Phase.of_run upTo.left inOrder.1
      (fun other member => sounds other (by simp [member])) fresh
    exact (phase.step upTo
      (fun other member => inOrder.2.2 other member frame (by simp)) (sounds frame (by simp))).2
  refine ⟨counts, ?_, ?_⟩
  · intro earlier frame later split other second rest otherSplit counted again first repeated
    exact ((counts earlier frame later split counted).mp first).2.unique
      ((counts other second rest otherSplit again).mp repeated).2 (split.symm.trans otherSplit)
  · intro history frame faint
    rw [answer, hear_of_faint faint]

/-- Silence, and then the pitch that a concert is tuned to: it counts at the
third of its detections, 0.4 seconds after the first. -/
theorem sustained_tone_counts_once_concert_pitch :
    let tone (time : Rat) : Frame Rat := ⟨time, 440, 19 / 20⟩
    let round (frequency : Rat) : Except Fault Int :=
      if 0 < frequency then .ok 69 else .error .undefined
    (standard : Filter Rat).answer round [⟨0, 0, 0⟩, tone (1 / 10), tone (3 / 10)] (tone (1 / 2)) =
      .ok (some 69) := by
  intro tone round
  have heard : ∀ time, (standard : Filter Rat).Hears round 69 (tone time) := by
    intro time
    simp only [Hears, credible, standard, Measure.decimal, Measure.less, tone, round]
    norm_num
  have law := sustained_tone_counts_once (standard : Filter Rat) round
    (by rw [Measure.atMost_rat_iff]; norm_num [standard, Measure.decimal])
    (by
      intro frequency positive _
      have above : 0 < frequency := by simpa [Measure.less, Measure.decimal] using positive
      exact ⟨69, by simp [round, above]⟩)
    [⟨0, 0, 0⟩] [tone (1 / 10), tone (3 / 10), tone (1 / 2)] (fun _ _ => ⟨_, rfl⟩)
    (by simp only [Measure.atMost_rat_iff, tone]; norm_num)
    69 (by simp [heard]) (by simp [Hears, credible, standard, Measure.decimal, Measure.less])
  refine (law.1 [tone (1 / 10), tone (3 / 10)] (tone (1 / 2)) [] rfl 69).mpr ⟨rfl, ?_⟩
  refine ⟨[], tone (1 / 10), [tone (3 / 10)], rfl, ⟨by simp, ?_⟩, ?_, ?_⟩
  · have faint : (standard : Filter Rat).credible ⟨0, 0, 0⟩ = false := by
      norm_num [credible, standard, Measure.decimal, Measure.less]
    have log := commits_snoc (standard : Filter Rat) round [] ⟨0, 0, 0⟩
    rw [law.2.2 [] _ faint] at log
    rintro ⟨time, deadline, entry, -⟩
    have empty : (standard : Filter Rat).commits round [⟨0, 0, 0⟩] = [] := log
    simp [empty] at entry
  · simp only [List.mem_singleton, forall_eq, LongSince, Measure.minus, Measure.less,
      Except.ok.injEq, exists_eq_left', standard, Measure.decimal, tone]
    norm_num
  · simp only [LongSince, Measure.minus, Measure.less, Except.ok.injEq, exists_eq_left', standard,
      Measure.decimal, tone]
    norm_num

end Jianpu.Capture.Filter
