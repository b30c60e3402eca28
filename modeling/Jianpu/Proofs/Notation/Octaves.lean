import Jianpu.Proofs.Notation.Replacing
import Jianpu.Proofs.Notation.Writing

/-! Notes in other octaves. Octave marks that are put in right after the digit of
every note leave all tokens where they are, and each note is read as before, only
octaves higher or lower. -/

set_option autoImplicit false

namespace Jianpu.Notation

open Number (Scalar)

variable {α : Type} (octaves : Int)

/-- A token with more octave marks, which go in right after the digit. -/
def Token.raised : Token → Token
  | .bar marker => .bar marker
  | .note digit modifiers => .note digit (Pitch.octaveMarks octaves ++ modifiers)

def Piece.raised (piece : Piece) : Piece :=
  { piece with token := piece.token.raised octaves }

/-- A note some octaves higher. -/
def Note.raised (note : Note α) : Note α :=
  { note with
    octave := note.octave + octaves
    staffStep := note.staffStep + 7 * octaves
    pitch := note.pitch + 12 * octaves
    source := String.ofList (note.source.toList.take 1 ++ Pitch.octaveMarks octaves ++
      note.source.toList.drop 1) }

def Event.raised : Event α → Event α
  | .bar marker => .bar marker
  | .note n => .note (n.raised octaves)

def Melody.raised (melody : Melody α) : Melody α :=
  { melody with events := melody.events.map (Event.raised octaves) }

/-! Tokens -/

theorem Token.raised_canReplace (token : Token) : (token.raised octaves).CanReplace token := by
  cases token with
  | bar marker => exact Token.canReplace_self (.bar marker)
  | note digit modifiers =>
      apply Token.canReplace_note
      intro marks
      exact List.forall_mem_append.mpr ⟨octaveMark_is_modifier, marks⟩

/-- A text with more octave marks has the same tokens, with more octave marks. -/
theorem IsCut.tokens_raised {before last : List Char} {pieces : List Piece}
    (cut : IsCut before pieces last) :
    Notation.tokens (written (pieces.map (Piece.raised octaves)) last) =
      (Notation.tokens (written pieces last)).map (Token.raised octaves) := by
  have replaced : List.Forall₂ Piece.CanReplace (pieces.map (Piece.raised octaves)) pieces := by
    rw [List.forall₂_map_left_iff, List.forall₂_same]
    intro piece _
    exact ⟨rfl, piece.token.raised_canReplace octaves⟩
  rw [cut.tokens_replaced replaced, cut.tokens, List.map_map, List.map_map]
  rfl

/-! Notes -/

section

variable (modifiers : List Char)

theorem count_octaveMarks_append {c : Char} (notUp : c ≠ '\'') (notDown : c ≠ ',') :
    (Pitch.octaveMarks octaves ++ modifiers).count c = modifiers.count c := by
  have absent : c ∉ Pitch.octaveMarks octaves := by
    intro member
    rcases mem_octaveMarks c member with same | same
    · exact notUp same
    · exact notDown same
  rw [List.count_append, List.count_eq_zero_of_not_mem absent, Nat.zero_add]

theorem contains_octaveMarks_append {c : Char} (notUp : c ≠ '\'') (notDown : c ≠ ',') :
    (Pitch.octaveMarks octaves ++ modifiers).contains c = modifiers.contains c := by
  have same := count_octaveMarks_append octaves modifiers notUp notDown
  rw [Bool.eq_iff_iff, List.contains_iff_mem, List.contains_iff_mem, ← List.count_pos_iff,
    ← List.count_pos_iff, same]

end

theorem notesOf_raised (events : List (Event α)) :
    notesOf (events.map (Event.raised octaves)) = (notesOf events).map (Note.raised octaves) :=
  notesOf_map (fun _ => rfl) (fun _ => rfl) events

theorem Melody.notes_raised (melody : Melody α) :
    (melody.raised octaves).notes = melody.notes.map (Note.raised octaves) :=
  notesOf_raised octaves melody.events

variable [Scalar α]

theorem noteOf_raised (key : Key) {digit : Char} (degree : digit ∈ degreeDigits)
    (modifiers : List Char) :
    noteOf (α := α) key digit (Pitch.octaveMarks octaves ++ modifiers) =
      (noteOf key digit modifiers).raised octaves := by
  have octave : octaveOf (Pitch.octaveMarks octaves ++ modifiers) =
      octaveOf modifiers + octaves := by
    rw [octaveOf_append, octaveOf_octaveMarks, Int.add_comm]
  have accidental : accidentalOf (Pitch.octaveMarks octaves ++ modifiers) =
      accidentalOf modifiers := by
    simp only [accidentalOf, contains_octaveMarks_append octaves modifiers, ne_eq, Char.reduceEq,
      not_false_eq_true, count_octaveMarks_append octaves modifiers]
  have duration : durationOf (α := α) (Pitch.octaveMarks octaves ++ modifiers) =
      durationOf modifiers := by
    refine durationOf_append fun c member => ?_
    rcases mem_octaveMarks c member with rfl | rfl <;> decide
  have beams : beamsOf (Pitch.octaveMarks octaves ++ modifiers) = beamsOf modifiers := by
    simp only [beamsOf, contains_octaveMarks_append octaves modifiers, ne_eq, Char.reduceEq,
      not_false_eq_true, count_octaveMarks_append octaves modifiers]
  have pitch : (Pitch.ofDegree? key (degreeOf digit) (accidentalOf modifiers)
        (octaveOf modifiers + octaves)).getD 0 =
      (Pitch.ofDegree? key (degreeOf digit) (accidentalOf modifiers)
        (octaveOf modifiers)).getD 0 + 12 * octaves := by
    rw [Pitch.ofDegree?_eq key (degreeOf_bounds degree), Pitch.ofDegree?_eq key
      (degreeOf_bounds degree), Option.getD_some, Option.getD_some,
      Pitch.semitonesOfStep_octaves, Pitch.semitonesOfStep_octaves]
    omega
  have step : (octaveOf modifiers + octaves) * 7 + Pitch.staffOffset (degreeOf digit) =
      octaveOf modifiers * 7 + Pitch.staffOffset (degreeOf digit) + 7 * octaves := by
    omega
  simp only [noteOf, Note.raised, octave, accidental, duration, beams, pitch, step,
    contains_octaveMarks_append octaves modifiers, count_octaveMarks_append octaves modifiers,
    ne_eq, Char.reduceEq, not_false_eq_true, String.toList_ofList, List.take_succ_cons,
    List.take_zero, List.drop_succ_cons, List.drop_zero, List.cons_append, List.nil_append]

theorem eventsOf_raised (key : Key) {before last : List Char} {pieces : List Piece}
    (cut : IsCut before pieces last) :
    eventsOf (α := α) key (written (pieces.map (Piece.raised octaves)) last) =
      (eventsOf key (written pieces last)).map (Event.raised octaves) := by
  rw [eventsOf, eventsOf, cut.tokens_raised, List.map_map, List.map_map]
  refine List.map_congr_left ?_
  intro token member
  cases token with
  | bar marker => rfl
  | note digit modifiers =>
      exact congrArg Event.note (noteOf_raised octaves key (degree_of_mem_tokens member) modifiers)

/-- Of what a melody means, more octave marks change the octaves of the notes only. -/
theorem ofText_raised (key : Key) {before last : List Char} {pieces : List Piece}
    (cut : IsCut before pieces last) {text : String} (read : written pieces last = text.toList) :
    Melody.ofText (α := α) key
        (String.ofList (written (pieces.map (Piece.raised octaves)) last)) =
      (Melody.ofText key text).raised octaves := by
  have total : totalDuration ((eventsOf (α := α) key text.toList).map (Event.raised octaves)) =
      totalDuration (eventsOf key text.toList) := by
    rw [totalDuration, notesOf_raised, List.map_map]
    rfl
  rw [Melody.ofText, Melody.ofText, String.toList_ofList, eventsOf_raised octaves key cut, read,
    total]
  rfl

end Jianpu.Notation
