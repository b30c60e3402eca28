import Jianpu.Document
import Jianpu.Proofs.Notation.Replacing
import Jianpu.Proofs.Notation.Writing

/-! Notation in another key. The tokens of a text do not depend on the key, and of
what they mean only two things do: the pitch of a note moves as the tonic does, and
its label is the degree's name in the key. -/

set_option autoImplicit false

namespace Jianpu

open Number (Scalar)
open Notation (Event Melody Note Section)

namespace Notation

variable {α : Type}

/-- A note that is sung and shown in another key, whose tonic is a number of semitones off. -/
def Note.inKey (key : Key) (shift : Int) (note : Note α) : Note α :=
  { note with
    pitch := note.pitch + shift
    label := (key.label? note.degree).getD "" ++ accidentalSign note.accidental }

def Event.inKey (key : Key) (shift : Int) : Event α → Event α
  | .bar marker => .bar marker
  | .note n => .note (n.inKey key shift)

def Melody.inKey (key : Key) (shift : Int) (melody : Melody α) : Melody α :=
  { melody with events := melody.events.map (Event.inKey key shift) }

/-- A section in another key. Chord glyphs are in no key. -/
def Section.inKey (key : Key) (shift : Int) : Section α → Section α
  | .melody meaning source => .melody (meaning.inKey key shift) source
  | .chords glyphs source => .chords glyphs source

theorem notesOf_inKey (key : Key) (shift : Int) (events : List (Event α)) :
    notesOf (events.map (Event.inKey key shift)) = (notesOf events).map (Note.inKey key shift) :=
  notesOf_map (fun _ => rfl) (fun _ => rfl) events

theorem Melody.notes_inKey (key : Key) (shift : Int) (melody : Melody α) :
    (melody.inKey key shift).notes = melody.notes.map (Note.inKey key shift) :=
  notesOf_inKey key shift melody.events

theorem Section.melody?_inKey (key : Key) (shift : Int) (entry : Section α) :
    (entry.inKey key shift).melody? = entry.melody?.map (Melody.inKey key shift) := by
  cases entry <;> rfl

variable [Scalar α]

/-- A degree sounds as far above one tonic as above another. -/
theorem pitch_noteOf {digit : Char} (degree : digit ∈ degreeDigits) (modifiers : List Char)
    (first second : Key) :
    (noteOf (α := α) second digit modifiers).pitch =
      (noteOf (α := α) first digit modifiers).pitch + (second.tonicClass - first.tonicClass) := by
  rw [pitch_noteOf_eq second degree, pitch_noteOf_eq first degree]
  simp only [noteOf, Pitch.tonic, Pitch.ofClass]
  omega

theorem noteOf_inKey {digit : Char} (degree : digit ∈ degreeDigits) (modifiers : List Char)
    (first second : Key) :
    noteOf (α := α) second digit modifiers =
      (noteOf first digit modifiers).inKey second (second.tonicClass - first.tonicClass) := by
  rw [Note.inKey, ← pitch_noteOf degree modifiers]
  rfl

theorem eventsOf_inKey (first second : Key) (cs : List Char) :
    eventsOf (α := α) second cs = (eventsOf first cs).map
      (Event.inKey second (second.tonicClass - first.tonicClass)) := by
  rw [eventsOf, eventsOf, List.map_map]
  refine List.map_congr_left ?_
  intro token member
  cases token with
  | bar marker => rfl
  | note digit modifiers =>
      exact congrArg Event.note (noteOf_inKey (degree_of_mem_tokens member) modifiers first second)

theorem ofText_inKey (first second : Key) (text : String) :
    Melody.ofText (α := α) second text =
      (Melody.ofText first text).inKey second (second.tonicClass - first.tonicClass) := by
  have total : totalDuration (eventsOf (α := α) second text.toList) =
      totalDuration (eventsOf first text.toList) := by
    rw [totalDuration, eventsOf_inKey first second, notesOf_inKey, List.map_map]
    rfl
  rw [Melody.ofText, total, eventsOf_inKey first second]
  rfl

end Notation

/-- A block reads the same in another key, but for the pitches and labels of its notes. -/
theorem Block.meaning_inKey {α : Type} [Scalar α] (first second : Key) (block : Block) :
    block.meaning (α := α) second =
      (block.meaning first).inKey second (second.tonicClass - first.tonicClass) := by
  unfold Block.meaning
  split
  · rfl
  all_goals
    rw [Notation.ofText_inKey first second]
    rfl

theorem Document.key_setKey (document : Document) (keyIndex : Int) :
    (document.setKey keyIndex).key = Key.atOrDefault keyIndex :=
  rfl

theorem Document.sections_setKey {α : Type} [Scalar α] (document : Document) (first second : Int) :
    (document.setKey second).sections (α := α) = (document.setKey first).sections.map
      (Section.inKey (Key.atOrDefault second)
        ((Key.atOrDefault second).tonicClass - (Key.atOrDefault first).tonicClass)) := by
  simp only [Document.sections, Document.key_setKey, List.map_map]
  exact List.map_congr_left fun block _ => Block.meaning_inKey _ _ block

end Jianpu
