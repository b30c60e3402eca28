import Jianpu.Proofs.Midi.Track
import Jianpu.Proofs.Timeline.Onsets
import Mathlib.Algebra.Order.Floor.Ring
import Mathlib.Data.Rat.Floor
import Mathlib.Tactic.FieldSimp

/-! A melody in ticks, in exact rationals. Seconds come and go: a file that is made at
the tempo of its timeline has its notes at the ticks of their beats. -/

set_option autoImplicit false

namespace Jianpu.Midi

open Number (Scalar)
open Notation (beatsOf melodyNotes)
open Timeline (onsets toneAt)

/-- The melody track of a file. -/
def File.melodyTrack (file : File) : List TrackEvent :=
  melodyEvents file.name file.velocity.toNat file.notes

/-- A file of the melodies of a document, scheduled and exported at one tempo. -/
def Exports {α : Type} [Scalar α] [Number.Divisible α] (document : Document) (tempo : α)
    (velocity : Int) (name : String) (file : File) : Prop :=
  ∃ tones, Timeline.schedule document.sections tempo = .ok tones ∧
    File.ofTones tones tempo velocity name = .ok file

deriving instance DecidableEq for File

theorem exports_iff {α : Type} [Scalar α] [Number.Divisible α] {document : Document} {tempo : α}
    {velocity : Int} {name : String} {file : File} :
    Exports document tempo velocity name file ↔
      ((Timeline.schedule document.sections tempo).mapError Error.number).bind
        (fun tones => File.ofTones tones tempo velocity name) = .ok file := by
  rw [Exports]
  cases Timeline.schedule document.sections tempo with
  | error fault => simp [Except.mapError, Except.bind]
  | ok tones => simp [Except.mapError, Except.bind]

/-- A note in ticks, at the beats that pass before it. -/
def inTicks (onset : Rat × Notation.Note Rat) : Note :=
  { pitch := clampPitch onset.2.pitch
    start := ⌊960 * onset.1⌋
    stop := ⌊960 * onset.1⌋ + ⌊864 * onset.2.duration⌋ }

theorem wholePart_of_nonneg {value : Rat} (nonnegative : 0 ≤ value) :
    Number.wholePart value = ⌊value⌋ :=
  if_neg nonnegative.not_gt

theorem ticks_rat {beat seconds : Rat} (positive : 0 < beat) (nonnegative : 0 ≤ seconds) :
    ticks beat seconds = .ok ⌊seconds / beat * 960⌋ := by
  have nonzero : Number.Divisible.isZero beat = false := by
    simpa [Number.Divisible.isZero] using positive.ne'
  have perQuarter : (Scalar.ofInt (ticksPerQuarter : Int) : Rat) = 960 := by
    norm_num [Scalar.ofInt, ticksPerQuarter]
  rw [ticks, nonzero, perQuarter]
  exact congrArg Except.ok (wholePart_of_nonneg (by positivity))

theorem noteOf_toneAt {tempo : Rat} (positive : 0 < tempo) {onset : Rat × Notation.Note Rat}
    (elapsed : 0 ≤ onset.1) (duration : 0 ≤ onset.2.duration) :
    noteOf tempo (toneAt (60 / tempo) onset) = .ok (inTicks onset) := by
  have beat : 0 < 60 / tempo := by positivity
  have start : ticks (60 / tempo) (onset.1 * (60 / tempo)) = .ok ⌊960 * onset.1⌋ := by
    rw [ticks_rat beat (mul_nonneg elapsed beat.le), mul_div_cancel_right₀ _ beat.ne', mul_comm]
  have length : ticks (60 / tempo) (onset.2.duration * (60 / tempo) * (9 / 10)) =
      .ok ⌊864 * onset.2.duration⌋ := by
    have whole : onset.2.duration * (60 / tempo) * (9 / 10) / (60 / tempo) * 960 =
        864 * onset.2.duration := by
      rw [mul_right_comm, mul_div_cancel_right₀ _ beat.ne']
      ring
    rw [ticks_rat beat (by positivity), whole]
  simp only [noteOf, Timeline.secondsPerBeat_rat positive, toneAt, start, length, bind, Except.bind]
  rfl

theorem mapM_noteOf {tempo : Rat} (positive : 0 < tempo)
    {onsets : List (Rat × Notation.Note Rat)}
    (nonnegative : ∀ onset ∈ onsets, 0 ≤ onset.1 ∧ 0 ≤ onset.2.duration) :
    (onsets.map (toneAt (60 / tempo))).mapM (noteOf tempo) = .ok (onsets.map inTicks) := by
  induction onsets with
  | nil => rfl
  | cons onset onsets ih =>
      obtain ⟨elapsed, duration⟩ := nonnegative onset List.mem_cons_self
      rw [List.map_cons, List.mapM_cons, noteOf_toneAt positive elapsed duration,
        ih fun other among => nonnegative other (List.mem_cons_of_mem onset among)]
      rfl

/-- The notes of a document in ticks. -/
def notesInTicks (document : Document) : List Note :=
  (onsets 0 (melodyNotes document.sections)).map inTicks

theorem notesInTicks_nonneg (document : Document) :
    ∀ onset ∈ onsets 0 (melodyNotes document.sections), 0 ≤ onset.1 ∧ 0 < onset.2.duration := by
  intro onset member
  rw [Notation.sections_eq_meanings] at member
  obtain ⟨elapsed, among⟩ := Timeline.mem_onsets
    (fun note sung => (Notation.duration_pos sung).le) member
  exact ⟨elapsed, Notation.duration_pos among⟩

/-- The notes of a file are those of the document in ticks, whatever the tempo. -/
theorem exports_notesInTicks (document : Document) {tempo : Rat} (positive : 0 < tempo)
    (velocity : Int) {name : String} {octets : List UInt8} (latin : latin1? name = some octets) :
    Exports document tempo velocity name
      ⟨⌊60000000 / tempo⌋, octets, velocity, notesInTicks document⟩ := by
  refine ⟨_, Timeline.schedule_eq (Notation.summed_sections document) positive, ?_⟩
  have nonzero : Number.Divisible.isZero tempo = false := by
    simpa [Number.Divisible.isZero] using positive.ne'
  have quarter : quarterMicrosOf tempo = .ok ⌊60000000 / tempo⌋ := by
    have minute : (Scalar.ofInt 60000000 : Rat) = 60000000 := by
      norm_num [Scalar.ofInt]
    rw [quarterMicrosOf, nonzero, minute]
    exact congrArg Except.ok (wholePart_of_nonneg (by positivity))
  have notes := mapM_noteOf positive fun onset member =>
    (notesInTicks_nonneg document onset member).imp_right le_of_lt
  simp only [File.ofTones, quarter, latin, notes, Except.mapError, Option.elim, bind, Except.bind]
  rfl

theorem getElem?_notesInTicks (document : Document) (place : Nat) :
    (notesInTicks document)[place]? =
      (melodyNotes document.sections)[place]?.map fun note =>
        inTicks (beatsOf ((melodyNotes document.sections).take place), note) := by
  rw [notesInTicks, List.getElem?_map, Timeline.getElem?_onsets, Option.map_map]
  simp only [zero_add, Function.comp_def]

theorem serial_notesInTicks (document : Document) : Serial (notesInTicks document) where
  forward := by
    intro note member
    obtain ⟨onset, among, rfl⟩ := List.mem_map.mp member
    obtain ⟨elapsed, duration⟩ := notesInTicks_nonneg document onset among
    have start : 0 ≤ ⌊960 * onset.1⌋ := Int.floor_nonneg.mpr (by positivity)
    have length : 0 ≤ ⌊864 * onset.2.duration⌋ := Int.floor_nonneg.mpr (by positivity)
    exact ⟨start, by simp only [inTicks]; omega⟩
  apart := by
    have durations : ∀ note ∈ melodyNotes document.sections, 0 ≤ note.duration := by
      rw [Notation.sections_eq_meanings]
      exact fun note sung => (Notation.duration_pos sung).le
    have apart := Timeline.pairwise_onsets durations 0
    refine List.pairwise_map.mpr (apart.imp_of_mem ?_)
    intro earlier later among _ ended
    have duration := (notesInTicks_nonneg document earlier among).2
    -- The sum of two floors is at most the floor of the sum.
    calc ⌊960 * earlier.1⌋ + ⌊864 * earlier.2.duration⌋
        ≤ ⌊960 * earlier.1 + 864 * earlier.2.duration⌋ := Int.le_floor_add _ _
      _ ≤ ⌊960 * later.1⌋ := Int.floor_le_floor (by linarith)

theorem File.octets_eq {file : File} (tempo : 0 ≤ file.quarterMicros ∧ file.quarterMicros < 2 ^ 32)
    (velocity : 0 ≤ file.velocity ∧ file.velocity ≤ 255) :
    ∃ front, file.octets = .ok (front ++ trackChunk (withDeltas 0 file.melodyTrack)) := by
  have tempoFits : ¬ (file.quarterMicros < 0 ∨ 0x100000000 ≤ file.quarterMicros) := by
    omega
  have velocityFits : ¬ (file.notes ≠ [] ∧ (file.velocity < 0 ∨ 255 < file.velocity)) := by
    rintro ⟨-, low | high⟩ <;> omega
  rw [File.octets, File.tracks, if_neg tempoFits, if_neg velocityFits]
  exact ⟨header ++ (trackChunk (conductorEvents file.quarterMicros.toNat) ++ trackChunk []),
    by rw [List.append_assoc]; rfl⟩

/-- A document exported at the tempo that it was scheduled at gives a file with one note for each
of its own, in order. Each starts with the whole ticks of the beats before it and lasts nine tenths
of its length in whole ticks, so no tempo moves it and none of them overlap; and the melody track
starts and stops these notes and no others. -/
theorem export_is_in_time (document : Document) {tempo : Rat} (positive : 0 < tempo)
    (velocity : Int) {name : String} {octets : List UInt8} (latin : latin1? name = some octets) :
    ∃ file, Exports document tempo velocity name file ∧
      file.notes.length = (melodyNotes document.sections).length ∧
      (∀ (place : Nat) (note : Notation.Note Rat),
        (melodyNotes document.sections)[place]? = some note → file.notes[place]? = some
          { pitch := (max 0 (min 127 note.pitch)).toNat
            start := ⌊960 * beatsOf ((melodyNotes document.sections).take place)⌋
            stop := ⌊960 * beatsOf ((melodyNotes document.sections).take place)⌋ +
              ⌊864 * note.duration⌋ }) ∧
      file.notes.Pairwise (fun earlier later => earlier.stop ≤ later.start) ∧
      startsOf file.melodyTrack = file.notes.map (startEvent velocity.toNat) ∧
      stopsOf file.melodyTrack = file.notes.map (stopEvent velocity.toNat) ∧
      (60000000 < tempo * 2 ^ 32 → 0 ≤ velocity ∧ velocity ≤ 255 →
        ∃ front, file.octets = .ok (front ++ trackChunk (withDeltas 0 file.melodyTrack))) := by
  have serial := serial_notesInTicks document
  refine ⟨_, exports_notesInTicks document positive velocity latin, ?_, ?_, serial.apart,
    startsOf_melodyEvents serial, stopsOf_melodyEvents serial, ?_⟩
  · rw [notesInTicks, List.length_map, Timeline.length_onsets]
  · intro place note found
    rw [getElem?_notesInTicks, found]
    rfl
  · intro slow audible
    refine File.octets_eq ⟨Int.floor_nonneg.mpr (by positivity), ?_⟩ audible
    have quarter : 60000000 / tempo < (2 ^ 32 : Int) := by
      rw [div_lt_iff₀ positive]
      push_cast
      linarith
    exact Int.floor_lt.mpr quarter

theorem export_is_in_time_over_chords :
    (0 : Rat) < 100 ∧ latin1? "Melody" = some [77, 101, 108, 111, 100, 121] ∧
      ∃ file,
        Exports { blocks := [⟨.melody, "1_"⟩, ⟨.chords, "C"⟩, ⟨.melody, "5"⟩] } (100 : Rat) 80
          "Melody" file ∧
        file.notes = [⟨60, 0, 432⟩, ⟨67, 480, 1344⟩] := by
  have tempo : (0 : Rat) < 100 := by decide
  have latin : latin1? "Melody" = some [77, 101, 108, 111, 100, 121] := by decide
  obtain ⟨file, exports, length, each, -⟩ :=
    export_is_in_time { blocks := [⟨.melody, "1_"⟩, ⟨.chords, "C"⟩, ⟨.melody, "5"⟩] } tempo 80 latin
  have sung : melodyNotes
      (Document.sections { blocks := [⟨.melody, "1_"⟩, ⟨.chords, "C"⟩, ⟨.melody, "5"⟩] }) =
      [Notation.noteOf (Document.key {}) '1' ['_'], Notation.noteOf (Document.key {}) '5' []] := by
    decide +kernel
  rw [sung] at length each
  have first := each 0 _ rfl
  have second := each 1 _ rfl
  refine ⟨tempo, latin, file, exports, List.ext_getElem? ?_⟩
  rintro (_ | _ | place)
  · exact first.trans (by decide +kernel)
  · exact second.trans (by decide +kernel)
  · rw [List.getElem?_eq_none (by simp [length])]
    rfl

end Jianpu.Midi
