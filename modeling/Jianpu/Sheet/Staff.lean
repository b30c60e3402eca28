import Jianpu.Document

set_option autoImplicit false

/-!
A document as a score for staff notation: its titles, tempo and key signature, and the notes of all
melody blocks one after another. Chord text has no place on a staff.
-/
namespace Jianpu

open Number (Amount Scalar)

/-- A note on the staff. -/
structure StaffNote (α : Type) where
  pitch : Int
  /-- Length in quarter notes. -/
  quarters : α

/-- A score of one part. -/
structure StaffScore (α : Type) where
  title : String
  /-- The name of the work's movement; absent when empty. -/
  movement : Option String
  tempo : Amount
  /-- Sharps of the key signature, or flats below zero. -/
  fifths : Int
  notes : List (StaffNote α)

/-- The score of a document. -/
def Document.staffScore {α : Type} [Scalar α] (document : Document) : StaffScore α :=
  { title := document.title
    movement := if document.album.isEmpty then none else some document.album
    tempo := document.tempo
    fifths := (document.keyIndex.whole?.map Key.fifthsOfIndex).getD 0
    notes := (document.sections.filterMap Notation.Section.melody?).flatMap fun melody =>
      melody.notes.map fun note => ⟨note.pitch, note.duration⟩ }

end Jianpu
