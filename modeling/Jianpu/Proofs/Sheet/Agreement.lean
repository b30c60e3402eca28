import Jianpu.Proofs.Drawing.Labels
import Jianpu.Proofs.Timeline.Tones
import Jianpu.Sheet.Export

/-! A document on the staff, to the ear and on a drawing. The three walk the sections each in
its own way; all of them meet the notes of the melodies once, in the order of the text.
The key signature names the tonic that the notes are counted from. -/

set_option autoImplicit false

namespace Jianpu

open Number (Amount Coordinate Divisible Scalar)
open Notation (Melody Note Section)

/-- The notes of all melodies of a document. -/
def Document.sungNotes {α : Type} [Scalar α] (document : Document) : List (Note α) :=
  (document.sections.filterMap Section.melody?).flatMap Melody.notes

/-! The key signature -/

/-- The tonic stands as many fifths above C as the signature has sharps. -/
theorem Key.tonicClass_atOrDefault (index : Int) :
    (atOrDefault index).tonicClass % 12 = 7 * fifthsOfIndex index % 12 := by
  by_cases inCatalog : 0 ≤ index ∧ index < 13
  · obtain ⟨place, rfl⟩ := Int.eq_ofNat_of_zero_le inCatalog.1
    have listed : ∀ place < 13, (atOrDefault (place : Nat)).tonicClass % 12 =
        7 * fifthsOfIndex (place : Nat) % 12 := by
      decide
    exact listed place (by omega)
  · have unknown : at? index = none := by
      rw [at?]
      split
      · exact List.getElem?_eq_none (by simp only [catalog, List.length_cons, List.length_nil]; omega)
      · rfl
    rw [atOrDefault, unknown, fifthsOfIndex, if_neg (by omega), if_neg (by omega)]
    rfl

/-- A plain `1` is one note, the tonic in its own octave. -/
theorem Notation.ofText_one {α : Type} [Scalar α] (key : Key) :
    ∃ one, (Melody.ofText (α := α) key "1").events = [.note one] ∧ one.pitch = Pitch.tonic key := by
  have cut : tokens "1".toList = [.note '1' []] := by
    decide +kernel
  refine ⟨noteOf key '1' [], congrArg (List.map (eventOf key)) cut, ?_⟩
  have counted : Pitch.ofDegree? key (degreeOf '1') 0 0 = some (Pitch.tonic key) := by
    simp [Pitch.ofDegree?, show Pitch.semitones? (degreeOf '1') = some 0 from rfl]
  exact congrArg (Option.getD · 0) counted

/-! The glyphs -/

namespace Layout

/-- The drawings of a document show its notes one by one, if they can be made. -/
theorem noteTexts_drawings? (document : Document) :
    (drawings? document).map (List.flatMap Drawing.noteTexts) =
      (drawings? document).map fun _ => (document.sungNotes (α := Float)).map centreText := by
  refine Option.map_congr fun drawings made => ?_
  rw [flatMap_of_mapM noteTexts_complete? made]
  exact noteTexts_ofSections (asCoordinates document.settings) document.sections

end Layout

/-- The tools are given the score, whether or not they can do with it. -/
theorem Sheet.score_render (tools : StaffTools) (document : Document) :
    (Sheet.render tools .staff document).2.map (·.score) = some document.staffScore := by
  unfold Sheet.render
  dsimp only
  split <;> rfl

/-- Whatever the key, in the catalog or not, the notes of a document's melodies are what goes on the
staff, what sounds and what is drawn, one for one and in order: the staff has their pitches and
lengths, the tones their pitches and the parts of their lengths that sound, and the drawings the
beginnings of their labels. The tonic of the key signature is the pitch class of a plain `1`. -/
theorem Document.agrees_with_staff {α : Type} [Scalar α] [Divisible α] (document : Document)
    (keyIndex : Int) (tools : StaffTools) (tempo : α) (settings : Settings α) :
    let played := document.setKey keyIndex
    let sections := played.sections (α := α)
    let notes := played.sungNotes (α := α)
    (Sheet.render tools .staff played).2.map (·.score) = some played.staffScore ∧
      (played.staffScore (α := α)).notes = notes.map (fun note => ⟨note.pitch, note.duration⟩) ∧
      (Timeline.schedule sections tempo).map (List.map fun tone => (tone.pitch, tone.duration)) =
        (Timeline.secondsPerBeat tempo).map (fun beat => notes.map (Timeline.sound beat)) ∧
      (sections.flatMap fun entry => (Layout.ofSection settings entry).noteTexts) =
        notes.map Layout.centreText ∧
      (Layout.drawings? played).map (List.flatMap Drawing.noteTexts) =
        (Layout.drawings? played).map (fun _ =>
          (played.sungNotes (α := Float)).map Layout.centreText) ∧
      ∃ one, (Melody.ofText (α := α) played.key "1").events = [.note one] ∧
        7 * (played.staffScore (α := α)).fifths % 12 = one.pitch % 12 := by
  intro played sections notes
  refine ⟨Sheet.score_render tools played, ?_, Timeline.schedule_sound sections tempo,
    Layout.noteTexts_ofSections settings sections, Layout.noteTexts_drawings? played, ?_⟩
  · exact List.map_flatMap.symm
  · obtain ⟨one, read, pitch⟩ := Notation.ofText_one (α := α) played.key
    refine ⟨one, read, ?_⟩
    have signature : (played.staffScore (α := α)).fifths = Key.fifthsOfIndex keyIndex := rfl
    have tonic : one.pitch = 60 + (Key.atOrDefault keyIndex).tonicClass := pitch
    have classes := Key.tonicClass_atOrDefault keyIndex
    omega

end Jianpu
