import Jianpu.Proofs.Drawing.Extent
import Jianpu.Proofs.Notation.Grammar
import Jianpu.Proofs.Notation.Writing
import Mathlib.Data.List.MinMax

/-! Where notes stand. A canvas is as high as its notes ask, with the highest of them at its
upper margin and the lowest at its lower one. Without accidentals the staff orders notes as
their pitches do. -/

set_option autoImplicit false

namespace Jianpu

open Number (Scalar)
open Notation (Melody Note)

/-! Staff steps and pitches -/

namespace Notation

variable {δ : Type} [Scalar δ] {key : Key} {text : String}

theorem pitch_of_mem_notes {note : Note δ} (member : note ∈ (Melody.ofText key text).notes) :
    note.pitch = Pitch.tonic key + Pitch.semitonesOfStep note.staffStep + note.accidental := by
  obtain ⟨digit, modifiers, degree, rfl⟩ := exists_noteOf member
  exact pitch_noteOf_eq key degree modifiers

theorem pitch_lt_iff_staffStep_lt {first second : Note δ}
    (among : first ∈ (Melody.ofText key text).notes)
    (alsoAmong : second ∈ (Melody.ofText key text).notes) (plain : first.accidental = 0)
    (alsoPlain : second.accidental = 0) :
    first.pitch < second.pitch ↔ first.staffStep < second.staffStep := by
  have order := Pitch.semitonesOfStep_lt_iff first.staffStep second.staffStep
  rw [pitch_of_mem_notes among, pitch_of_mem_notes alsoAmong, plain, alsoPlain, ← order]
  omega

end Notation

namespace Layout

variable {δ : Type} {notes : List (Note δ)} {note : Note δ} {settings : Settings Rat}

/-! Margins -/

/-- A note that none of the others stands above. -/
def IsHighest (notes : List (Note δ)) (note : Note δ) : Prop :=
  note ∈ notes ∧ ∀ other ∈ notes, other.staffStep ≤ note.staffStep

/-- A note that none of the others stands below. -/
def IsLowest (notes : List (Note δ)) (note : Note δ) : Prop :=
  note ∈ notes ∧ ∀ other ∈ notes, note.staffStep ≤ other.staffStep

theorem exists_isHighest (sounding : notes ≠ []) : ∃ note, IsHighest notes note := by
  have present : notes.argmax (·.staffStep) ≠ none := List.argmax_eq_none.not.mpr sounding
  obtain ⟨note, found⟩ := Option.ne_none_iff_exists'.mp present
  exact ⟨note, List.argmax_mem found, fun other among => List.le_of_mem_argmax among found⟩

theorem exists_isLowest (sounding : notes ≠ []) : ∃ note, IsLowest notes note := by
  have present : notes.argmin (·.staffStep) ≠ none := List.argmin_eq_none.not.mpr sounding
  obtain ⟨note, found⟩ := Option.ne_none_iff_exists'.mp present
  exact ⟨note, List.argmin_mem found, fun other among => List.le_of_mem_argmin among found⟩

theorem centre_x (baseline : Rat) (index : Nat) (note : Note δ) :
    (centre settings baseline index note).x = 20 + index * settings.spacing := by
  simp only [centre, pixels_rat, Int.cast_natCast, Int.cast_ofNat]

theorem centre_y (baseline : Rat) (index : Nat) (note : Note δ) :
    (centre settings baseline index note).y = baseline - note.staffStep * settings.scale := by
  simp only [centre, pixels_rat]

/-- A greater staff step stands higher, since the y axis points down. -/
theorem centre_y_lt (stretched : 0 < settings.scale) {first second : Note δ}
    (below : first.staffStep < second.staffStep) (baseline : Rat) (index place : Nat) :
    (centre settings baseline place second).y < (centre settings baseline index first).y := by
  have step : (first.staffStep : Rat) < second.staffStep := Int.cast_lt.mpr below
  have raised := mul_lt_mul_of_pos_right step stretched
  rw [centre_y, centre_y]
  linarith

theorem highest_of_isHighest {first : Note δ} {rest : List (Note δ)}
    (top : IsHighest (first :: rest) note) :
    highest first.staffStep (rest.map (·.staffStep)) = note.staffStep := by
  obtain ⟨member, above⟩ := top
  obtain ⟨reached, most⟩ := highest_spec first.staffStep (rest.map (·.staffStep))
  rw [← List.map_cons (f := fun note : Note δ => note.staffStep)] at reached most
  obtain ⟨other, among, same⟩ := List.mem_map.mp reached
  apply le_antisymm
  · rw [← same]
    exact above other among
  · exact most _ (List.mem_map_of_mem member)

theorem lowest_of_isLowest {first : Note δ} {rest : List (Note δ)}
    (bottom : IsLowest (first :: rest) note) :
    lowest first.staffStep (rest.map (·.staffStep)) = note.staffStep := by
  obtain ⟨member, below⟩ := bottom
  obtain ⟨reached, least⟩ := lowest_spec first.staffStep (rest.map (·.staffStep))
  rw [← List.map_cons (f := fun note : Note δ => note.staffStep)] at reached least
  obtain ⟨other, among, same⟩ := List.mem_map.mp reached
  apply le_antisymm
  · exact least _ (List.mem_map_of_mem member)
  · rw [← same]
    exact below other among

/-- A canvas is measured by the notes at its margins. -/
theorem canvasOf_between (settings : Settings Rat) {top bottom : Note δ}
    (highest : IsHighest notes top) (lowest : IsLowest notes bottom) :
    (canvasOf notes settings).baseline = top.staffStep * settings.scale + 30 ∧
      (canvasOf notes settings).height =
        (top.staffStep - bottom.staffStep) * settings.scale + 60 := by
  cases notes with
  | nil => cases highest.1
  | cons first rest =>
      rw [canvasOf_cons, highest_of_isHighest highest, lowest_of_isLowest lowest]
      exact ⟨rfl, rfl⟩

theorem centre_of_isHighest (highest : IsHighest notes note) (index : Nat) :
    (centre settings (canvasOf notes settings).baseline index note).y = 30 := by
  obtain ⟨bottom, lowest⟩ := exists_isLowest (List.ne_nil_of_mem highest.1)
  rw [centre_y, (canvasOf_between settings highest lowest).1]
  ring

theorem centre_of_isLowest (lowest : IsLowest notes note) (index : Nat) :
    (centre settings (canvasOf notes settings).baseline index note).y =
      (canvasOf notes settings).height - 30 := by
  obtain ⟨top, highest⟩ := exists_isHighest (List.ne_nil_of_mem lowest.1)
  obtain ⟨baseline, height⟩ := canvasOf_between settings highest lowest
  rw [centre_y, baseline, height]
  ring

/-! Melodies -/

theorem mem_placed {entry : Note δ × Point Rat} (member : entry ∈ placed notes settings) :
    ∃ index, notes[index]? = some entry.1 ∧
      entry.2 = centre settings (canvasOf notes settings).baseline index entry.1 := by
  obtain ⟨index, found⟩ := List.getElem?_of_mem member
  rw [getElem?_placed] at found
  obtain ⟨note, there, rfl⟩ := Option.map_eq_some_iff.mp found
  exact ⟨index, there, rfl⟩

/-- The glyphs of a melody stand in the order of its notes, at equal distances and within the
margins of the canvas. The highest and the lowest notes stand at the upper and the lower margin,
and of two notes without accidentals the one that sounds higher stands higher. -/
theorem notes_stand_by_pitch [Scalar δ] (key : Key) (text : String) (settings : Settings Rat)
    (spacing : 0 ≤ settings.spacing) (scale : 0 ≤ settings.scale) :
    let notes := (Melody.ofText (α := δ) key text).notes
    let canvas := canvasOf notes settings
    let entries := placed notes settings
    entries.map Prod.fst = notes ∧
      (ofNotes notes settings).noteGlyphs.map (fun glyph => ⟨glyph.x, glyph.y⟩) =
        entries.map Prod.snd ∧
      (∀ (index : Nat) note point, entries[index]? = some (note, point) →
        point.x = 20 + index * settings.spacing ∧ IsInside canvas point) ∧
      (notes ≠ [] → (∃ note, IsHighest notes note) ∧ ∃ note, IsLowest notes note) ∧
      (∀ entry ∈ entries, (IsHighest notes entry.1 → entry.2.y = 30) ∧
        (IsLowest notes entry.1 → entry.2.y = canvas.height - 30)) ∧
      ∀ first ∈ entries, ∀ second ∈ entries,
        first.1.accidental = 0 → second.1.accidental = 0 →
          (first.1.pitch < second.1.pitch ↔ first.1.staffStep < second.1.staffStep) ∧
          (first.1.pitch = second.1.pitch → first.2.y = second.2.y) ∧
          (0 < settings.scale → first.1.pitch < second.1.pitch → second.2.y < first.2.y) := by
  intro notes canvas entries
  refine ⟨map_fst_placed notes settings, ?_, ?_, ?_, ?_, ?_⟩
  · rw [Drawing.noteGlyphs, ofNotes, noteGlyphs_primitivesOf, List.map_map]
    rfl
  · intro index note point found
    rw [getElem?_placed] at found
    obtain ⟨noted, there, same⟩ := Option.map_eq_some_iff.mp found
    obtain ⟨rfl, rfl⟩ := Prod.mk.inj same
    exact ⟨centre_x _ index noted, isInside_centre spacing scale there⟩
  · intro sounding
    exact ⟨exists_isHighest sounding, exists_isLowest sounding⟩
  · intro entry member
    obtain ⟨index, there, stands⟩ := mem_placed member
    rw [stands]
    exact ⟨fun highest => centre_of_isHighest highest index,
      fun lowest => centre_of_isLowest lowest index⟩
  · intro first among second alsoAmong plain alsoPlain
    obtain ⟨index, there, stands⟩ := mem_placed among
    obtain ⟨place, alsoThere, alsoStands⟩ := mem_placed alsoAmong
    have member := List.mem_of_getElem? there
    have alsoMember := List.mem_of_getElem? alsoThere
    have lower := Notation.pitch_lt_iff_staffStep_lt member alsoMember plain alsoPlain
    have higher := Notation.pitch_lt_iff_staffStep_lt alsoMember member alsoPlain plain
    rw [stands, alsoStands]
    refine ⟨lower, fun same => ?_, fun stretched below => ?_⟩
    · have level : first.1.staffStep = second.1.staffStep := by omega
      rw [centre_y, centre_y, level]
    · exact centre_y_lt stretched (lower.mp below) _ index place

/-- The seventh below the tonic stands at the lower margin and the third above it at the upper
one. -/
theorem notes_stand_by_pitch_around_tonic :
    let settings : Settings Rat := ⟨20, 10⟩
    let notes := (Melody.ofText (α := Rat) Key.cMajor "7, 3").notes
    let canvas := canvasOf notes settings
    ∃ low high, placed notes settings = [low, high] ∧ low.1.pitch = 59 ∧ high.1.pitch = 64 ∧
      (low.2.x = 20 ∧ IsInside canvas low.2) ∧ (high.2.x = 40 ∧ IsInside canvas high.2) ∧
      high.2.y = 30 ∧ low.2.y = canvas.height - 30 ∧ high.2.y < low.2.y := by
  intro settings notes canvas
  let low : Note Rat := Notation.noteOf Key.cMajor '7' [',']
  let high : Note Rat := Notation.noteOf Key.cMajor '3' []
  have cut : Notation.tokens "7, 3".toList = [.note '7' [','], .note '3' []] := by
    decide +kernel
  have read : (Melody.ofText (α := Rat) Key.cMajor "7, 3").notes = [low, high] := by
    simp only [Melody.ofText, Melody.notes, Notation.eventsOf, cut]
    rfl
  obtain ⟨-, -, inside, -, margins, order⟩ := notes_stand_by_pitch (δ := Rat) Key.cMajor "7, 3"
    settings (by norm_num [settings]) (by norm_num [settings])
  simp only [notes, canvas]
  rw [read] at inside margins order ⊢
  have highest : IsHighest [low, high] high :=
    ⟨by simp, List.forall_mem_cons.mpr ⟨by decide, List.forall_mem_singleton.mpr le_rfl⟩⟩
  have lowest : IsLowest [low, high] low :=
    ⟨by simp, List.forall_mem_cons.mpr ⟨le_rfl, List.forall_mem_singleton.mpr (by decide)⟩⟩
  have lowInside := inside 0 low _ rfl
  have highInside := inside 1 high _ rfl
  have above := order _ List.mem_cons_self _ (List.mem_cons_of_mem _ List.mem_cons_self) rfl rfl
  refine ⟨_, _, rfl, rfl, rfl, ⟨?_, lowInside.2⟩, ⟨?_, highInside.2⟩, ?_, ?_, ?_⟩
  · rw [lowInside.1]
    norm_num
  · rw [highInside.1]
    norm_num [settings]
  · exact (margins _ (List.mem_cons_of_mem _ List.mem_cons_self)).1 highest
  · exact (margins _ List.mem_cons_self).2 lowest
  · exact above.2.2 (by norm_num [settings]) (by decide)

end Layout

end Jianpu
