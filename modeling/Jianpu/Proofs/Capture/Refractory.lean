import Jianpu.Proofs.Capture.Replay
import Mathlib.Algebra.Order.Field.Basic
import Mathlib.Algebra.Order.Field.Rat
import Mathlib.Data.List.Chain
import Mathlib.Tactic.Linarith
import Mathlib.Tactic.NormNum

/-! How far apart the entries of the log are. The filter remembers the pitch that
counted last and no other, so the refractory period is kept between neighbours
of the log only. Of entries further apart, two stability windows are all that is
certain. -/

set_option autoImplicit false

namespace Jianpu.Capture.Filter

open Number (Measure Fault)

/-- Detections whose times never go back. -/
def InOrder (frames : List (Frame Rat)) : Prop :=
  frames.Pairwise fun first second => first.time ≤ second.time

/-- What lies between an entry of the log and the next. -/
def Spaced (filter : Filter Rat) (first second : Int × Rat) : Prop :=
  first.2 + filter.stabilityWindow < second.2 ∧
    (first.1 = second.1 → first.2 + filter.refractoryPeriod ≤ second.2)

/-- A pitch that has counted never counts again before its refractory period is
over, whatever counts in between. -/
def KeepsRefractoryPeriod (filter : Filter Rat) : Prop :=
  ∀ (round : Rat → Except Fault Int) (frames : List (Frame Rat)), InOrder frames →
    ∀ (before between after : List (Int × Rat)) (pitch : Int) (time later : Rat),
      filter.commits round frames =
        before ++ (pitch, time) :: (between ++ (pitch, later) :: after) →
      time + filter.refractoryPeriod ≤ later

variable {filter : Filter Rat} {round : Rat → Except Fault Int} {frames : List (Frame Rat)}

theorem sums_rat (filter : Filter Rat) (frames : List (Frame Rat)) : filter.Sums frames :=
  fun _ _ => ⟨_, rfl⟩

theorem longSince_rat_iff {since time : Rat} :
    filter.LongSince since time ↔ since + filter.stabilityWindow < time := by
  simp only [LongSince, Measure.minus, Measure.less, Except.ok.injEq, exists_eq_left',
    decide_eq_true_eq]
  exact lt_sub_iff_add_lt'

/-- An entry of the log has the time of a detection. -/
theorem time_of_commits {entry : Int × Rat} (logs : entry ∈ filter.commits round frames) :
    ∃ frame ∈ frames, frame.time = entry.2 := by
  induction frames using List.reverseRecOn with
  | nil => simp [commits, replay] at logs
  | append_singleton before frame ih =>
      rw [commits_snoc, List.mem_append] at logs
      rcases logs with earlier | now
      · obtain ⟨heard, member, same⟩ := ih earlier
        exact ⟨heard, List.mem_append_left _ member, same⟩
      · generalize filter.answer round before frame = answer at now
        unfold logged at now
        split at now
        · obtain rfl := List.mem_singleton.mp now
          exact ⟨frame, by simp, rfl⟩
        · cases now

/-- A candidate was first heard after the last entry of the log was made. -/
theorem last_le_candidate (ordered : InOrder frames) {candidate : Candidate Rat}
    (waiting : (filter.stateAfter round frames).candidate = some candidate)
    {entry : Int × Rat} (last : (filter.commits round frames).getLast? = some entry) :
    entry.2 ≤ candidate.since := by
  induction frames using List.reverseRecOn with
  | nil => simp [commits, replay] at last
  | append_singleton before frame ih =>
      obtain ⟨earlier, -, latest⟩ := List.pairwise_append.mp ordered
      have step := step_snoc round (sums_rat filter (before ++ [frame]))
      rw [commits_snoc] at last
      generalize filter.stateAfter round (before ++ [frame]) = next at step waiting
      generalize filter.answer round before frame = answer at step last
      cases step with
      | faint | refused | counted => cases waiting
      | unplaced | sounding =>
          rw [logged_eq_nil_iff.mpr (by simp), List.append_nil] at last
          exact ih earlier waiting last
      | waited heard standing silent =>
          rw [logged_eq_nil_iff.mpr silent, List.append_nil] at last
          exact ih earlier waiting last
      | started =>
          cases waiting
          rw [logged_eq_nil_iff.mpr (by simp), List.append_nil] at last
          obtain ⟨heard, member, same⟩ := time_of_commits (List.mem_of_getLast? last)
          exact same ▸ latest heard member frame (by simp)

/-- A pitch of the last entry is not refused once its period is over. -/
theorem last_of_allowed {pitch : Int} {time : Rat}
    (allowed : refused (filter.stateAfter round frames) pitch time = false) {entry : Int × Rat}
    (last : (filter.commits round frames).getLast? = some entry) (same : entry.1 = pitch) :
    entry.2 + filter.refractoryPeriod ≤ time := by
  have tracked := last_tracks_commits round (sums_rat filter frames)
  rw [last] at tracked
  unfold refused at allowed
  generalize (filter.stateAfter round frames).last = kept at tracked allowed
  cases tracked with
  | some related =>
      obtain ⟨samePitch, due⟩ := related
      have deadline : entry.2 + filter.refractoryPeriod = _ := Except.ok.inj due
      simp only [samePitch, same, beq_self_eq_true, Bool.true_and, Measure.less,
        decide_eq_false_iff_not, not_lt] at allowed
      exact deadline ▸ allowed

theorem isChain_commits (round : Rat → Except Fault Int) (ordered : InOrder frames) :
    (filter.commits round frames).IsChain filter.Spaced := by
  induction frames using List.reverseRecOn with
  | nil => exact .nil
  | append_singleton before frame ih =>
      have earlier := (List.pairwise_append.mp ordered).1
      have chain := ih earlier
      have step := step_snoc round (sums_rat filter (before ++ [frame]))
      rw [commits_snoc]
      generalize filter.stateAfter round (before ++ [frame]) = next at step
      generalize filter.answer round before frame = answer at step
      cases step with
      | counted heard allowed waiting long =>
          refine chain.append (.singleton _) ?_
          intro entry last new isNew
          obtain rfl : _ = new := by simpa [logged] using isNew
          have since := last_le_candidate earlier waiting last
          have passed := longSince_rat_iff.mp long
          exact ⟨by linarith, last_of_allowed allowed last⟩
      | waited heard waiting silent =>
          rw [logged_eq_nil_iff.mpr silent, List.append_nil]
          exact chain
      | faint | unplaced | sounding | refused | started =>
          rw [logged_eq_nil_iff.mpr (by simp), List.append_nil]
          exact chain

/-- In a stretch of the log, one stability window passes from entry to entry. -/
theorem Spaced.windows {first last : Int × Rat}
    {between : List (Int × Rat)} (chain : (first :: (between ++ [last])).IsChain filter.Spaced) :
    first.2 + (between.length + 1) * filter.stabilityWindow < last.2 := by
  induction between generalizing first with
  | nil =>
      have apart := (List.isChain_pair.mp chain).1
      simpa using apart
  | cons next between ih =>
      obtain ⟨apart, rest⟩ := List.isChain_cons_cons.mp chain
      have onward := ih rest
      rw [List.length_cons, Nat.cast_succ]
      linarith [apart.1]

/-- The period is kept when only the pitch itself counts in between. -/
theorem Spaced.period_of_alone (window : 0 ≤ filter.stabilityWindow) {pitch : Int}
    {first last : Int × Rat} {between : List (Int × Rat)}
    (chain : (first :: (between ++ [last])).IsChain filter.Spaced)
    (same : first.1 = pitch) (alone : ∀ entry ∈ between, entry.1 = pitch)
    (again : last.1 = pitch) :
    first.2 + filter.refractoryPeriod ≤ last.2 := by
  cases between with
  | nil => exact (List.isChain_pair.mp chain).2 (same.trans again.symm)
  | cons next between =>
      obtain ⟨apart, rest⟩ := List.isChain_cons_cons.mp chain
      have onward := Spaced.windows rest
      have passed := apart.2 (same.trans (alone next List.mem_cons_self).symm)
      have positive : 0 ≤ ((between.length : Rat) + 1) * filter.stabilityWindow := by positivity
      linarith

/-- Two entries of one pitch: a refractory period apart if only the pitch itself counts in between,
and two stability windows if anything does. -/
theorem commits_apart (window : 0 ≤ filter.stabilityWindow) (ordered : InOrder frames)
    {before between after : List (Int × Rat)} {pitch : Int} {time later : Rat}
    (log : filter.commits round frames =
      before ++ (pitch, time) :: (between ++ (pitch, later) :: after)) :
    ((∀ entry ∈ between, entry.1 = pitch) → time + filter.refractoryPeriod ≤ later) ∧
      (between ≠ [] → time + 2 * filter.stabilityWindow < later) := by
  have chain : (filter.commits round frames).IsChain filter.Spaced :=
    isChain_commits round ordered
  have stretch : ((pitch, time) :: (between ++ [(pitch, later)])).IsChain filter.Spaced := by
    refine chain.infix ⟨before, after, ?_⟩
    rw [log]
    simp
  refine ⟨fun alone => Spaced.period_of_alone window stretch rfl alone rfl, ?_⟩
  intro some
  have windows := Spaced.windows stretch
  have two : (1 : Rat) ≤ between.length := by
    exact_mod_cast List.length_pos_of_ne_nil some
  have more := mul_le_mul_of_nonneg_right two window
  linarith

/-! Pitches in turn -/

/-- A pitch that did not count last counts as soon as it is heard again after the
stability window. -/
theorem commits_pair {before : List (Frame Rat)} {pitch : Int} (first second : Frame Rat)
    (idle : (filter.stateAfter round before).candidate = none)
    (released : (filter.stateAfter round before).held ≠ some pitch)
    (other : ∀ last ∈ (filter.stateAfter round before).last, last.pitch ≠ pitch)
    (heardFirst : filter.Hears round pitch first) (heardSecond : filter.Hears round pitch second)
    (long : filter.LongSince first.time second.time) :
    filter.stateAfter round (before ++ [first, second]) =
        { held := some pitch, last := some ⟨pitch, second.time + filter.refractoryPeriod⟩ } ∧
      filter.commits round (before ++ [first, second]) =
        filter.commits round before ++ [(pitch, second.time)] := by
  have allowed : ∀ time, refused (filter.stateAfter round before) pitch time = false := by
    intro time
    unfold refused
    split
    · rename_i last known
      simp [(other last known).symm]
    · rfl
  have starts := hear_of_fresh heardFirst released (allowed first.time) (by simp [idle])
  have counts : filter.hear round
      { filter.stateAfter round before with
        candidate := some ⟨pitch, first.time⟩, held := none } second =
        ({ held := some pitch, last := some ⟨pitch, second.time + filter.refractoryPeriod⟩ },
          .ok (some pitch)) :=
    hear_of_long heardSecond (by simp) (allowed second.time) rfl long rfl
  have split : before ++ [first, second] = before ++ [first] ++ [second] := by simp
  rw [split, stateAfter_snoc, commits_snoc, commits_snoc, answer, answer, stateAfter_snoc, starts,
    counts]
  simp [logged]

/-- Two frequencies by turns, each of them heard twice, one step apart. -/
def alternation (clarity low high step : Rat) : List (Frame Rat) :=
  let tone (time frequency : Rat) : Frame Rat := ⟨time, frequency, clarity⟩
  [tone 0 low, tone step low, tone step high, tone (2 * step) high, tone (2 * step) low,
    tone (3 * step) low]

/-- A rounding that tells one frequency from all others. -/
def singledOut (chosen frequency : Rat) : Except Fault Int :=
  .ok (if frequency = chosen then 69 else 71)

theorem inOrder_alternation {clarity low high step : Rat} (forward : 0 ≤ step) :
    InOrder (alternation clarity low high step) := by
  simp only [InOrder, alternation, List.pairwise_cons, List.mem_cons, List.not_mem_nil, or_false,
    forall_eq_or_imp, forall_eq, List.Pairwise.nil, and_true, false_implies, implies_true]
  refine ⟨⟨?_, ?_, ?_, ?_, ?_⟩, ⟨?_, ?_, ?_, ?_⟩, ⟨?_, ?_, ?_⟩, ⟨?_, ?_⟩, ?_⟩ <;> linarith

/-- The first frequency counts again after two steps. -/
theorem commits_alternation {clarity low high step : Rat} (clear : filter.minClarity < clarity)
    (above : filter.minFrequency < low) (apart : low < high) (below : high < filter.maxFrequency)
    (steady : filter.stabilityWindow < step) :
    filter.commits (singledOut low) (alternation clarity low high step) =
      [(69, step), (71, 2 * step), (69, 3 * step)] := by
  let tone (time frequency : Rat) : Frame Rat := ⟨time, frequency, clarity⟩
  have heardLow : ∀ time, filter.Hears (singledOut low) 69 (tone time low) := by
    intro time
    have within := lt_trans apart below
    simp [Hears, credible, Measure.less, singledOut, tone, clear, above, within]
  have heardHigh : ∀ time, filter.Hears (singledOut low) 71 (tone time high) := by
    intro time
    have within := lt_trans above apart
    simp [Hears, credible, Measure.less, singledOut, tone, clear, below, within, apart.ne']
  have fresh : filter.stateAfter (singledOut low) [] = {} := rfl
  obtain ⟨afterFirst, logFirst⟩ := commits_pair (tone 0 low) (tone step low) (by rw [fresh])
    (by simp [fresh]) (by simp [fresh]) (heardLow 0) (heardLow step)
    (longSince_rat_iff.mpr (by simpa [tone] using steady))
  obtain ⟨afterSecond, logSecond⟩ := commits_pair (tone step high)
    (tone (2 * step) high) (by rw [afterFirst]) (by rw [afterFirst]; simp)
    (by rw [afterFirst]; simp) (heardHigh step) (heardHigh (2 * step))
    (longSince_rat_iff.mpr (by simp only [tone]; linarith))
  obtain ⟨-, logThird⟩ := commits_pair (tone (2 * step) low)
    (tone (3 * step) low) (by rw [afterSecond]) (by rw [afterSecond]; simp)
    (by rw [afterSecond]; simp) (heardLow (2 * step)) (heardLow (3 * step))
    (longSince_rat_iff.mpr (by simp only [tone]; linarith))
  have silent : filter.commits (singledOut low) [] = [] := rfl
  rw [logSecond, logFirst, silent] at logThird
  exact logThird

/-- Nothing counts where no frequency is within the bounds. -/
theorem commits_of_inaudible (inaudible : filter.maxFrequency ≤ filter.minFrequency) :
    filter.commits round frames = [] := by
  induction frames using List.reverseRecOn with
  | nil => rfl
  | append_singleton before frame ih =>
      have faint : filter.credible frame = false := by
        rw [Bool.eq_false_iff]
        intro clear
        simp only [credible, Measure.less, Bool.and_eq_true, decide_eq_true_eq] at clear
        linarith
      rw [commits_snoc, ih, answer, hear_of_faint faint]
      rfl

/-- A filter that can hear two pitches breaks its promise when the period is longer
than two windows. -/
theorem not_keepsRefractoryPeriod (window : 0 ≤ filter.stabilityWindow)
    (audible : filter.minFrequency < filter.maxFrequency)
    (longer : 2 * filter.stabilityWindow < filter.refractoryPeriod) :
    ¬ filter.KeepsRefractoryPeriod := by
  obtain ⟨low, above, rest⟩ := exists_between audible
  obtain ⟨high, apart, below⟩ := exists_between rest
  obtain ⟨double, steady, short⟩ := exists_between longer
  intro keeps
  have log : filter.commits (singledOut low)
      (alternation (filter.minClarity + 1) low high (double / 2)) = _ :=
    commits_alternation (lt_add_one filter.minClarity) above apart below (by linarith)
  have promised := keeps _ _ (inOrder_alternation (by linarith)) [] [(71, 2 * (double / 2))] [] 69
    (double / 2) (3 * (double / 2)) log
  linarith

/-! The promise -/

/-- Entries of one pitch keep the refractory period if only that pitch counts in
between. If anything counts in between they are still two stability windows apart.
So a filter that hears anything keeps the period, whatever counts in between,
exactly when two windows are as long as the period. -/
theorem refractory_period_within_two_windows (filter : Filter Rat)
    (window : 0 ≤ filter.stabilityWindow) :
    (filter.KeepsRefractoryPeriod ↔
      filter.refractoryPeriod ≤ 2 * filter.stabilityWindow ∨
        filter.maxFrequency ≤ filter.minFrequency) ∧
    ∀ (round : Rat → Except Fault Int) (frames : List (Frame Rat)), InOrder frames →
      ∀ (before between after : List (Int × Rat)) (pitch : Int) (time later : Rat),
        filter.commits round frames =
          before ++ (pitch, time) :: (between ++ (pitch, later) :: after) →
        ((∀ entry ∈ between, entry.1 = pitch) → time + filter.refractoryPeriod ≤ later) ∧
        (between ≠ [] → time + 2 * filter.stabilityWindow < later) := by
  refine ⟨⟨?_, ?_⟩, fun _ _ ordered _ _ _ _ _ _ log => commits_apart window ordered log⟩
  · intro keeps
    by_contra longer
    rw [not_or, not_le, not_le] at longer
    exact not_keepsRefractoryPeriod window longer.2 longer.1 keeps
  · rintro (short | inaudible) round frames ordered before between after pitch time later log
    · obtain ⟨alone, passed⟩ := commits_apart window ordered log
      by_cases nothing : between = []
      · exact alone (by simp [nothing])
      · linarith [passed nothing]
    · simp [commits_of_inaudible inaudible] at log

/-- The bounds of live capture keep the period: two windows are 0.6 seconds. -/
theorem refractory_period_within_standard_windows :
    (standard : Filter Rat).KeepsRefractoryPeriod ∧
      (standard : Filter Rat).commits (singledOut 440) (alternation (19 / 20) 440 494 (2 / 5)) =
        [(69, 2 / 5), (71, 2 * (2 / 5)), (69, 3 * (2 / 5))] ∧
      2 / 5 + 2 * (standard : Filter Rat).stabilityWindow < 3 * (2 / 5) := by
  have law := refractory_period_within_two_windows (standard : Filter Rat)
    (by norm_num [standard, Measure.decimal])
  have log : (standard : Filter Rat).commits (singledOut 440)
      (alternation (19 / 20) 440 494 (2 / 5)) = _ :=
    commits_alternation (by norm_num [standard, Measure.decimal])
      (by norm_num [standard, Measure.decimal]) (by norm_num)
      (by norm_num [standard, Measure.decimal]) (by norm_num [standard, Measure.decimal])
  refine ⟨law.1.mpr (.inl (by norm_num [standard, Measure.decimal])), log, ?_⟩
  exact (law.2 _ _ (inOrder_alternation (by norm_num)) [] [(71, 2 * (2 / 5))] [] 69 _ _ log).2
    (by simp)

/-- A filter with a window of an eighth of a second and a period of half a second
lets a pitch count again after three eighths, once another has counted. -/
theorem refractory_period_cut_short :
    let filter : Filter Rat := ⟨4 / 5, 60, 2000, 1 / 8, 1 / 2⟩
    let frames := alternation (19 / 20) 440 494 (3 / 16)
    (0 ≤ filter.minFrequency ∧ 0 ≤ filter.stabilityWindow ∧ 0 ≤ filter.refractoryPeriod) ∧
      InOrder frames ∧
      filter.commits (singledOut 440) frames =
        [(69, 3 / 16), (71, 2 * (3 / 16)), (69, 3 * (3 / 16))] ∧
      3 * (3 / 16) < 3 / 16 + filter.refractoryPeriod := by
  refine ⟨by norm_num, inOrder_alternation (by norm_num), ?_, by norm_num⟩
  apply commits_alternation <;> norm_num

end Jianpu.Capture.Filter
