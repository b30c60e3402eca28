import Jianpu.Proofs.Notation.Joining
import Jianpu.Proofs.Notation.Replacing

/-! Modifiers in another order. A note only counts its modifiers, so that all it keeps of their
order is how it is written. -/

set_option autoImplicit false

namespace Jianpu.Notation

open Number (Scalar)

/-! What is compared -/

/-- The same token, or the note with its modifiers in another order. -/
inductive Token.Reordered : Token → Token → Prop where
  | bar (marker : List Char) : Reordered (.bar marker) (.bar marker)
  | note (digit : Char) {modifiers others : List Char} (permuted : modifiers.Perm others) :
      Reordered (.note digit modifiers) (.note digit others)

/-- The same gap, and behind it the same token or its modifiers in another order. -/
def Piece.Reordered (piece other : Piece) : Prop :=
  piece.gap = other.gap ∧ piece.token.Reordered other.token

section

variable {α : Type}

/-- A note without what it was written as. -/
def Note.unspelled (note : Note α) : Note α :=
  { note with source := "" }

def Event.unspelled : Event α → Event α
  | .bar marker => .bar marker
  | .note n => .note n.unspelled

def Melody.unspelled (melody : Melody α) : Melody α :=
  { melody with events := melody.events.map Event.unspelled }

/-- A section without what its notes were written as. Chord glyphs are nothing else. -/
def Section.unspelled : Section α → Section α
  | .melody meaning _ => .melody meaning.unspelled ""
  | .chords glyphs source => .chords glyphs source

theorem notesOf_unspelled (events : List (Event α)) :
    notesOf (events.map Event.unspelled) = (notesOf events).map Note.unspelled :=
  notesOf_map (fun _ => rfl) (fun _ => rfl) events

theorem Melody.notes_unspelled (melody : Melody α) :
    melody.unspelled.notes = melody.notes.map Note.unspelled :=
  notesOf_unspelled melody.events

theorem Section.melody?_unspelled (entry : Section α) :
    entry.unspelled.melody? = entry.melody?.map Melody.unspelled := by
  cases entry <;> rfl

end

/-! Counts -/

section

variable {modifiers others : List Char} (permuted : modifiers.Perm others)

include permuted

theorem contains_of_perm (c : Char) : others.contains c = modifiers.contains c := by
  rw [List.contains_eq_mem, List.contains_eq_mem]
  exact decide_eq_decide.mpr permuted.symm.mem_iff

theorem count_of_perm (c : Char) : others.count c = modifiers.count c :=
  (permuted.count_eq c).symm

theorem accidentalOf_of_perm : accidentalOf others = accidentalOf modifiers := by
  simp only [accidentalOf, contains_of_perm permuted, count_of_perm permuted]

theorem octaveOf_of_perm : octaveOf others = octaveOf modifiers := by
  simp only [octaveOf, count_of_perm permuted]

theorem beamsOf_of_perm : beamsOf others = beamsOf modifiers := by
  simp only [beamsOf, contains_of_perm permuted, count_of_perm permuted]

variable {α : Type} [Scalar α]

theorem durationOf_of_perm : durationOf (α := α) others = durationOf modifiers := by
  simp only [durationOf, contains_of_perm permuted, count_of_perm permuted]

/-- Of a note nothing depends on the order of its modifiers but how it is written. -/
theorem noteOf_of_perm (key : Key) (digit : Char) :
    noteOf (α := α) key digit others =
      { noteOf key digit modifiers with source := String.ofList (digit :: others) } := by
  simp only [noteOf, accidentalOf_of_perm permuted, octaveOf_of_perm permuted,
    durationOf_of_perm permuted, beamsOf_of_perm permuted, contains_of_perm permuted,
    count_of_perm permuted]

end

/-! Texts -/

theorem Token.Reordered.canReplace {token other : Token} (reordered : token.Reordered other) :
    other.CanReplace token := by
  cases reordered with
  | bar marker => exact Token.canReplace_self (.bar marker)
  | note digit permuted =>
      apply Token.canReplace_note
      intro marks c member
      exact marks c (permuted.mem_iff.mpr member)

variable {α : Type} [Scalar α]

theorem Token.Reordered.eventOf_unspelled {token other : Token} (reordered : token.Reordered other)
    (key : Key) :
    (eventOf (α := α) key other).unspelled = (eventOf key token).unspelled := by
  cases reordered with
  | bar marker => rfl
  | note digit permuted =>
      rw [eventOf, noteOf_of_perm permuted]
      rfl

/-- A text whose notes have their modifiers in another order has the same events, but for how the
notes are written. -/
theorem IsCut.eventsOf_reordered {before last : List Char} {pieces others : List Piece}
    (cut : IsCut before pieces last) (reordered : List.Forall₂ Piece.Reordered pieces others)
    (key : Key) :
    (eventsOf (α := α) key (written others last)).map Event.unspelled =
      (eventsOf key (written pieces last)).map Event.unspelled := by
  have replaced : List.Forall₂ Piece.CanReplace others pieces := by
    refine reordered.flip.imp ?_
    intro other piece same
    exact ⟨same.1.symm, same.2.canReplace⟩
  rw [eventsOf, eventsOf, cut.tokens_replaced replaced, cut.tokens]
  clear cut replaced
  induction reordered with
  | nil => rfl
  | cons first _ ih =>
      simp only [List.map_cons, first.2.eventOf_unspelled key, ih]

theorem totalDuration_unspelled (events : List (Event α)) :
    totalDuration (events.map Event.unspelled) = totalDuration events := by
  rw [totalDuration, notesOf_unspelled, List.map_map]
  rfl

theorem IsCut.ofText_reordered {before last : List Char} {pieces others : List Piece}
    (cut : IsCut before pieces last) (reordered : List.Forall₂ Piece.Reordered pieces others)
    (key : Key) {text : String} (read : written pieces last = text.toList) :
    (Melody.ofText (α := α) key (String.ofList (written others last))).unspelled =
      (Melody.ofText key text).unspelled := by
  have events := cut.eventsOf_reordered (α := α) reordered key
  have total : totalDuration (eventsOf (α := α) key (written others last)) =
      totalDuration (eventsOf key (written pieces last)) := by
    rw [← totalDuration_unspelled, events, totalDuration_unspelled]
  rw [Melody.ofText, Melody.ofText, String.toList_ofList, ← read, Melody.unspelled,
    Melody.unspelled, events, total]

/-- A token alone is read as its note. -/
theorem events_ofText_note (key : Key) {digit : Char} {modifiers : List Char}
    (degree : digit ∈ degreeDigits) (marks : ∀ c ∈ modifiers, c ∈ noteModifiers) :
    (Melody.ofText (α := α) key (String.ofList (digit :: modifiers))).events =
      [.note (noteOf key digit modifiers)] := by
  rw [Melody.ofText, eventsOf, String.toList_ofList, tokens_note degree marks]
  rfl

end Jianpu.Notation
