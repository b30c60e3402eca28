import Jianpu.Proofs.Midi.Timing

/-! Sounds that stop again. The track puts the stops of a tick in front of its starts,
so a note that is rounded down to no tick at all stops before it starts and then sounds
on. Every other note is stopped by the event behind its start. -/

set_option autoImplicit false

namespace Jianpu.Midi

open Number (Scalar)
open Notation (melodyNotes)

/-- A start of a pitch is followed by a stop of it before anything else starts. -/
def Released (pitch : UInt8) (later : List TrackEvent) : Prop :=
  ∃ between stop rest, later = between ++ stop :: rest ∧ startsOf between = [] ∧
    stop.stops? = some pitch

/-- A track in which every sound stops before another starts. -/
def NothingStuck (track : List TrackEvent) : Prop :=
  ∀ before event later pitch, track = before ++ event :: later → event.starts? = some pitch →
    Released pitch later

/-- A start is told by the number of starts before it. -/
theorem split_at_start {front before back later : List TrackEvent} {start event : TrackEvent}
    (same : front ++ start :: back = before ++ event :: later) (starts : start.starts?.isSome)
    (alsoStarts : event.starts?.isSome)
    (count : (startsOf front).length = (startsOf before).length) :
    front = before ∧ start = event ∧ back = later := by
  induction front generalizing before with
  | nil =>
      cases before with
      | nil => simpa using same
      | cons other before =>
          obtain ⟨rfl, -⟩ := List.cons.inj same
          simp [startsOf, starts] at count
  | cons first front ih =>
      cases before with
      | nil =>
          obtain ⟨rfl, -⟩ := List.cons.inj same
          simp [startsOf, alsoStarts] at count
      | cons other before =>
          obtain ⟨rfl, rest⟩ := List.cons.inj same
          have others : (startsOf front).length = (startsOf before).length := by
            by_cases kind : first.starts?.isSome <;> simpa [startsOf, kind] using count
          obtain ⟨rfl, sameStart, sameBack⟩ := ih rest others
          exact ⟨rfl, sameStart, sameBack⟩

section Serial

variable {velocity : Nat} {name : List UInt8} {notes : List Note} (serial : Serial notes)
variable {before later : List TrackEvent} {event : TrackEvent} {pitch : UInt8}

include serial

/-- Every start of a melody track is that of a note, and the stop of a note of at least one tick
is the next event. -/
theorem note_of_start (split : melodyEvents name velocity notes = before ++ event :: later)
    (starts : event.starts? = some pitch) :
    ∃ note, notes[(startsOf before).length]? = some note ∧ pitch = note.pitch.toUInt8 ∧
      (note.start < note.stop → Released pitch later) := by
  have started : startsOf (melodyEvents name velocity notes) = notes.map (startEvent velocity) :=
    startsOf_melodyEvents serial
  have isStart : event.starts?.isSome := by rw [starts]; rfl
  have parts : startsOf before ++ event :: startsOf later = notes.map (startEvent velocity) := by
    rw [← started, split]
    simp [startsOf, isStart]
  obtain ⟨earlier, others, rfl, sameBefore, rest⟩ := List.map_eq_append_iff.mp parts.symm
  obtain ⟨note, behind, rfl, rfl, -⟩ := List.map_eq_cons_iff.mp rest
  have count : (startsOf before).length = earlier.length := by
    rw [← sameBefore, List.length_map]
  have samePitch : pitch = note.pitch.toUInt8 := (Option.some.inj starts).symm
  refine ⟨note, by simp [count], samePitch, ?_⟩
  intro long
  rw [melodyEvents_around serial long] at split
  obtain ⟨-, -, rfl⟩ := split_at_start split rfl isStart (by
    rw [startsOf_melodyEvents serial.front, List.length_map, count])
  exact ⟨[], stopEvent velocity note, _, rfl, rfl, by rw [stops?_stopEvent, samePitch]⟩

end Serial

/-- Every start in the track of a document is that of the melody note in its turn, and is released
if nine tenths of the note are a tick or more. -/
theorem melodyNote_of_start (document : Document) {velocity : Nat} {name : List UInt8}
    {before later : List TrackEvent} {event : TrackEvent} {pitch : UInt8}
    (split : melodyEvents name velocity (notesInTicks document) = before ++ event :: later)
    (starts : event.starts? = some pitch) :
    ∃ note, (melodyNotes document.sections)[(startsOf before).length]? = some note ∧
      pitch = (max 0 (min 127 note.pitch)).toNat.toUInt8 ∧
      (1 ≤ 864 * note.duration → Released pitch later) := by
  obtain ⟨ticked, found, rfl, released⟩ :=
    note_of_start (serial_notesInTicks document) split starts
  rw [getElem?_notesInTicks] at found
  obtain ⟨note, sung, rfl⟩ := Option.map_eq_some_iff.mp found
  refine ⟨note, sung, rfl, fun long => released ?_⟩
  have length : 1 ≤ ⌊864 * note.duration⌋ := Int.le_floor.mpr (by exact_mod_cast long)
  simp only [inTicks]
  omega

/-- A note with fewer than ten underscores lasts a tick at least. -/
theorem tick_le_durationOf {modifiers : List Char} (few : modifiers.count '_' < 10) :
    (1 : Rat) ≤ 864 * Notation.durationOf modifiers := by
  have base : (1 / 512 : Rat) ≤
      if modifiers.contains '=' then Scalar.decimal 25 2
      else Notation.halved (modifiers.count '_') := by
    split
    · norm_num [Scalar.decimal]
    · rw [Notation.halved_rat]
      calc (1 / 512 : Rat) = (1 / 2) ^ 9 := by norm_num
        _ ≤ (1 / 2) ^ modifiers.count '_' :=
            pow_le_pow_of_le_one (by norm_num) (by norm_num) (by omega)
  have dashes : (0 : Rat) ≤ Scalar.ofInt (modifiers.count '-' : Int) :=
    Int.cast_nonneg (Int.natCast_nonneg _)
  have dot : (Scalar.decimal 15 1 : Rat) = 3 / 2 := by
    norm_num [Scalar.decimal]
  unfold Notation.durationOf
  dsimp only
  split
  · rw [dot]
    linarith
  · linarith

/-- Every start in the track of an exported document is that of the melody note in its turn, and
is released if nine tenths of the note are a tick or more. Without a note of ten underscores
nothing is stuck. -/
theorem export_releases_ticks (document : Document) {tempo : Rat} (positive : 0 < tempo)
    (velocity : Int) {name : String} {octets : List UInt8} (latin : latin1? name = some octets) :
    ∃ file, Exports document tempo velocity name file ∧
      (∀ before event later pitch, file.melodyTrack = before ++ event :: later →
        event.starts? = some pitch →
        ∃ note, (melodyNotes document.sections)[(startsOf before).length]? = some note ∧
          pitch = (max 0 (min 127 note.pitch)).toNat.toUInt8 ∧
          (1 ≤ 864 * note.duration → Released pitch later)) ∧
      ((∀ note ∈ melodyNotes document.sections, note.source.toList.count '_' < 10) →
        NothingStuck file.melodyTrack) := by
  refine ⟨_, exports_notesInTicks document positive velocity latin,
    fun _ _ _ _ split starts => melodyNote_of_start document split starts, ?_⟩
  intro few before event later pitch split starts
  obtain ⟨note, sung, -, released⟩ := melodyNote_of_start document split starts
  have member := List.mem_of_getElem? sung
  obtain ⟨digit, modifiers, rfl⟩ := Notation.noteOf_of_melodyNotes member
  have marks : modifiers.count '_' ≤ (digit :: modifiers).count '_' := List.count_le_count_cons
  have source := few _ member
  rw [Notation.noteOf, String.toList_ofList] at source
  exact released (tick_le_durationOf (by omega))

theorem export_releases_ticks_of_short_note :
    (0 : Rat) < 60 ∧ latin1? "Melody" = some [77, 101, 108, 111, 100, 121] ∧
      ∃ file, Exports { blocks := [⟨.melody, "1_________ 5"⟩] } (60 : Rat) 80 "Melody" file ∧
        NothingStuck file.melodyTrack := by
  have tempo : (0 : Rat) < 60 := by decide
  have latin : latin1? "Melody" = some [77, 101, 108, 111, 100, 121] := by decide
  obtain ⟨file, exports, -, free⟩ :=
    export_releases_ticks { blocks := [⟨.melody, "1_________ 5"⟩] } tempo 80 latin
  exact ⟨tempo, latin, file, exports, free (by decide +kernel)⟩

theorem exports_ten_underscores :
    Exports { blocks := [⟨.melody, "1__________ 5"⟩] } (100 : Float) 80 "Melody"
      ⟨600000, [77, 101, 108, 111, 100, 121], 80, [⟨60, 0, 0⟩, ⟨67, 0, 864⟩]⟩ :=
  exports_iff.mpr (by decide +kernel)

/-- A note of ten underscores is stopped before it starts. -/
theorem export_leaves_note_stuck :
    ∃ file, Exports { blocks := [⟨.melody, "1__________ 5"⟩] } (100 : Float) 80 "Melody" file ∧
      ¬ NothingStuck file.melodyTrack := by
  refine ⟨_, exports_ten_underscores, ?_⟩
  have track : melodyEvents [77, 101, 108, 111, 100, 121] 80 [⟨60, 0, 0⟩, ⟨67, 0, 864⟩] =
      [⟨0, 0, [0xFF, 3, 6, 77, 101, 108, 111, 100, 121]⟩, ⟨0, 1, [0xC0, 0]⟩,
          ⟨0, 2, [0x80, 60, 80]⟩] ++
        ⟨0, 3, [0x90, 60, 80]⟩ :: [⟨0, 3, [0x90, 67, 80]⟩, ⟨864, 2, [0x80, 67, 80]⟩] := by
    have nameLength : variableLength 6 = [6] := by decide
    simp [melodyEvents, startEvent, stopEvent, List.mergeSort, TrackEvent.notAfter, nameLength]
  intro free
  obtain ⟨between, stop, rest, later, -, stops⟩ := free _ _ _ 60 track rfl
  have member : stop ∈ [(⟨0, 3, [0x90, 67, 80]⟩ : TrackEvent), ⟨864, 2, [0x80, 67, 80]⟩] := by
    simp [later]
  rcases List.mem_pair.mp member with rfl | rfl
  · cases stops
  · exact absurd (Option.some.inj stops) (by decide)

end Jianpu.Midi
