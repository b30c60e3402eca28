import Jianpu.Proofs.Timeline.Onsets

/-! A schedule in exact rationals. Every note is a tone in its turn; nine tenths of a
note sound and one tenth is silent, so no tone meets the next one and the last tone
is the last to end. -/

set_option autoImplicit false

namespace Jianpu

open Number (Scalar)
open Notation (beatsOf meanings melodyNotes)

/-- When a tone ends. -/
def Tone.stop (tone : Tone Rat) : Rat :=
  tone.start + tone.duration

namespace Timeline

variable {beat tempo : Rat} {notes : List (Notation.Note Rat)}

theorem stop_toneAt (onset : Rat × Notation.Note Rat) :
    (toneAt beat onset).stop = (onset.1 + 9 / 10 * onset.2.duration) * beat := by
  rw [Tone.stop, toneAt]
  ring

theorem start_le_stop_toneAt (forward : 0 < beat) {onset : Rat × Notation.Note Rat}
    (duration : 0 < onset.2.duration) : (toneAt beat onset).start ≤ (toneAt beat onset).stop := by
  rw [stop_toneAt]
  exact mul_le_mul_of_nonneg_right (by linarith) forward.le

theorem toneAt_pairwise (forward : 0 < beat) (durations : ∀ note ∈ notes, 0 < note.duration) :
    ((onsets 0 notes).map (toneAt beat)).Pairwise fun earlier later =>
      earlier.start ≤ later.start ∧ earlier.stop ≤ later.start := by
  have nonnegative : ∀ note ∈ notes, 0 ≤ note.duration :=
    fun note among => (durations note among).le
  refine List.pairwise_map.mpr ((pairwise_onsets nonnegative 0).imp_of_mem ?_)
  intro earlier later member _ past
  have length := durations earlier.2 (mem_onsets nonnegative member).2
  refine ⟨mul_le_mul_of_nonneg_right (by linarith) forward.le, ?_⟩
  rw [stop_toneAt]
  exact mul_le_mul_of_nonneg_right (by linarith) forward.le

/-! The end -/

/-- The largest of numbers in ascending order is the last one. -/
theorem foldl_larger_of_ascending {first : Rat} {rest : List Rat}
    (ascending : (first :: rest).Pairwise (· ≤ ·)) :
    rest.foldl Scalar.larger first = (first :: rest).getLast (List.cons_ne_nil _ _) := by
  induction rest generalizing first with
  | nil => rfl
  | cons next rest ih =>
      obtain ⟨least, others⟩ := List.pairwise_cons.mp ascending
      rw [List.foldl_cons, Number.larger_rat, max_eq_right (least next List.mem_cons_self), ih others,
        List.getLast_cons_cons]

/-- Tones that end one after the other have died away half a second after the last one. -/
theorem length_of_ascending {tones : List (Tone Rat)}
    (ascending : tones.Pairwise fun earlier later => earlier.stop ≤ later.stop) :
    length tones = tones.getLast?.elim 0 fun last => last.stop + 1 / 2 := by
  have half : (Scalar.decimal 5 1 : Rat) = 1 / 2 := by
    norm_num [Scalar.decimal]
  cases tones with
  | nil => exact Number.zero_rat
  | cons first rest =>
      have stops : ((first :: rest).map Tone.stop).Pairwise (· ≤ ·) :=
        List.pairwise_map.mpr ascending
      have last : (rest.map Tone.stop).foldl Scalar.larger first.stop =
          ((first :: rest).getLast (List.cons_ne_nil _ _)).stop :=
        (foldl_larger_of_ascending stops).trans
          (@List.getLast_map _ _ Tone.stop (first :: rest) (List.cons_ne_nil _ _))
      rw [List.getLast?_eq_some_getLast (List.cons_ne_nil _ _), Option.elim, ← last, ← half]
      rfl

/-- At any tempo, the notes of the melodies are tones in their turn, whichever keys the blocks are
read in and whatever stands between the melodies. Each starts when the beats of all earlier notes
have passed, sounds for nine tenths of its length and leaves the last tenth silent; no two of them
overlap, and all has died away half a second after the end of the last one. -/
theorem schedule_keeps_time (blocks : List (Key × Block)) (positive : 0 < tempo) :
    let notes := melodyNotes (meanings blocks)
    let beat := 60 / tempo
    ∃ tones, schedule (meanings blocks) tempo = .ok tones ∧
      tones.length = notes.length ∧
      (∀ (place : Nat) (note : Notation.Note Rat), notes[place]? = some note →
        ∃ tone, tones[place]? = some tone ∧
          tone.pitch = note.pitch ∧
          tone.start = beat * beatsOf (notes.take place) ∧
          tone.duration = 9 / 10 * (note.duration * beat) ∧
          ∀ next, tones[place + 1]? = some next →
            next.start - tone.stop = 1 / 10 * (note.duration * beat)) ∧
      tones.Pairwise (fun earlier later =>
        earlier.start ≤ later.start ∧ earlier.stop ≤ later.start) ∧
      length tones = tones.getLast?.elim 0 fun last => last.stop + 1 / 2 := by
  intro notes beat
  have forward : 0 < beat := by positivity
  have durations : ∀ note ∈ notes, 0 < note.duration := fun _ => Notation.duration_pos
  have apart := toneAt_pairwise forward durations
  have toneOf : ∀ place : Nat, ((onsets 0 notes).map (toneAt beat))[place]? =
      notes[place]?.map fun note => toneAt beat (beatsOf (notes.take place), note) := by
    intro place
    simp only [List.getElem?_map, getElem?_onsets, Option.map_map, Function.comp_def, zero_add]
  refine ⟨_, schedule_eq (Notation.summed_meanings blocks) positive, ?_, ?_, apart, ?_⟩
  · rw [List.length_map, length_onsets]
  · intro place note found
    refine ⟨_, by rw [toneOf, found]; rfl, rfl, mul_comm _ _, mul_comm _ _, ?_⟩
    intro next later
    rw [toneOf] at later
    obtain ⟨following, -, rfl⟩ := Option.map_eq_some_iff.mp later
    have elapsed : beatsOf (notes.take (place + 1)) =
        beatsOf (notes.take place) + note.duration := by
      simp [List.take_add_one, found, beatsOf]
    rw [stop_toneAt, toneAt, elapsed]
    ring
  · refine length_of_ascending (apart.imp_of_mem ?_)
    intro earlier later _ member ordered
    obtain ⟨onset, among, rfl⟩ := List.mem_map.mp member
    have inside := (mem_onsets (fun note member => (durations note member).le) among).2
    exact ordered.2.trans (start_le_stop_toneAt forward (durations onset.2 inside))

theorem schedule_keeps_time_over_chords :
    let g : Key := Key.atOrDefault 1
    let blocks : List (Key × Block) :=
      [(g, ⟨.melody, "|: 1_"⟩), (g, ⟨.chords, "G"⟩), (.cMajor, ⟨.melody, "5."⟩)]
    (0 : Rat) < 120 ∧ ∃ tones, schedule (meanings blocks) (120 : Rat) = .ok tones ∧
      tones.map (fun tone => (tone.pitch, tone.start, tone.duration)) =
        [(67, 0, 9 / 40), (67, 1 / 4, 27 / 40)] ∧
      length tones = 57 / 40 := by
  intro g blocks
  have tempo : (0 : Rat) < 120 := by decide
  obtain ⟨tones, scheduled, count, each, -, ended⟩ := schedule_keeps_time blocks tempo
  have sung : melodyNotes (meanings blocks) =
      [Notation.noteOf g '1' ['_'], Notation.noteOf .cMajor '5' ['.']] := by
    decide +kernel
  rw [sung] at count each
  obtain ⟨first, firstFound, firstPitch, firstStart, firstDuration, -⟩ := each 0 _ rfl
  obtain ⟨second, secondFound, secondPitch, secondStart, secondDuration, -⟩ := each 1 _ rfl
  obtain rfl : tones = [first, second] := by
    refine List.ext_getElem? ?_
    rintro (_ | _ | place)
    · exact firstFound
    · exact secondFound
    · rw [List.getElem?_eq_none (by simp [count])]
      rfl
  refine ⟨tempo, _, scheduled, ?_, ended.trans ?_⟩
  · simp only [List.map_cons, List.map_nil, firstPitch, firstStart, firstDuration, secondPitch,
      secondStart, secondDuration]
    decide +kernel
  · show second.start + second.duration + 1 / 2 = 57 / 40
    rw [secondStart, secondDuration]
    decide +kernel

end Timeline

end Jianpu
