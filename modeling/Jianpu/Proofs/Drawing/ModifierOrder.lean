import Jianpu.Proofs.Drawing.Labels
import Jianpu.Proofs.Notation.ModifierOrder
import Jianpu.Proofs.Timeline.Tones

/-! Modifiers in another order, seen and heard. Neither a drawing nor a timeline looks at how a
note was written. -/

set_option autoImplicit false

namespace Jianpu

open Notation (Event IsCut Melody Note Piece Section degreeDigits noteModifiers written)
open Number (Divisible Scalar)

/-! Drawings -/

namespace Layout

variable {α δ : Type} [Scalar α]

theorem ofNotes_unspelled (notes : List (Note δ)) (settings : Settings α) :
    ofNotes (notes.map Note.unspelled) settings = ofNotes notes settings := by
  have steps : ∀ note : Note δ, note.unspelled.staffStep = note.staffStep := fun _ => rfl
  have painted : ∀ (note : Note δ) (centre : Point α) next,
      notePrimitives note.unspelled centre (next.map (Prod.map Note.unspelled id)) =
        notePrimitives note centre next := by
    intro note centre next
    cases next <;> rfl
  rw [ofNotes, ofNotes, canvasOf_map steps, placed_map steps, primitivesOf_map painted]

theorem ofSection_unspelled (settings : Settings α) (entry : Section δ) :
    ofSection settings entry.unspelled = ofSection settings entry := by
  cases entry with
  | chords glyphs source => rfl
  | melody meaning source =>
      rw [Section.unspelled, ofSection, Notation.Melody.notes_unspelled, ofNotes_unspelled,
        ofSection]

end Layout

/-! Tones -/

namespace Timeline

variable {α : Type} [Scalar α] [Divisible α]

theorem schedule_unspelled (sections : List (Section α)) (tempo : α) :
    schedule (sections.map Section.unspelled) tempo = schedule sections tempo := by
  have moved : schedule (sections.map Section.unspelled) tempo =
      (schedule sections tempo).map (List.map (Tone.transposed 0)) :=
    schedule_map (f := Note.unspelled) (g := Melody.unspelled) (fun _ => (Int.add_zero _).symm)
      (fun _ => rfl) Notation.Melody.notes_unspelled (fun _ => rfl)
      Notation.Section.melody?_unspelled sections tempo
  rw [moved, Tone.transposed_zero, List.map_id_fun]
  cases schedule sections tempo <;> rfl

end Timeline

/-- The modifiers of a note may be written in any order. A token with its modifiers in another
order is read as the same note, but for how it is written. Every text is cut into gaps and tokens,
and with the modifiers of any of its notes in another order it is drawn and played as before,
whatever sections are played before and after it. -/
theorem modifier_order_never_matters {α β : Type} [Scalar α] [Divisible α] [Scalar β] (key : Key) :
    (∀ digit ∈ degreeDigits, ∀ modifiers others : List Char, modifiers.Perm others →
      (∀ c ∈ modifiers, c ∈ noteModifiers) →
      ∃ note : Note α,
        (Melody.ofText key (String.ofList (digit :: modifiers))).events = [.note note] ∧
          (Melody.ofText key (String.ofList (digit :: others))).events =
            [.note { note with source := String.ofList (digit :: others) }]) ∧
      ∀ text : String, ∃ pieces last, IsCut [] pieces last ∧ written pieces last = text.toList ∧
        ∀ others, List.Forall₂ Piece.Reordered pieces others →
          let entry : Section α := .melody (Melody.ofText key text) text
          let newText := String.ofList (written others last)
          let newEntry : Section α := .melody (Melody.ofText key newText) newText
          (∀ settings : Settings β,
            Layout.ofSection settings newEntry = Layout.ofSection settings entry) ∧
            ∀ before after tempo, Timeline.schedule (before ++ newEntry :: after) tempo =
              Timeline.schedule (before ++ entry :: after) tempo := by
  constructor
  · intro digit degree modifiers others permuted marks
    have newMarks : ∀ c ∈ others, c ∈ noteModifiers :=
      fun c member => marks c (permuted.mem_iff.mpr member)
    refine ⟨Notation.noteOf key digit modifiers, ?_, ?_⟩
    · exact Notation.events_ofText_note key degree marks
    · rw [Notation.events_ofText_note key degree newMarks, Notation.noteOf_of_perm permuted]
  · intro text
    obtain ⟨pieces, last, cut, read⟩ := Notation.exists_cut [] text.toList (by simp)
    refine ⟨pieces, last, cut, read, ?_⟩
    intro others reordered entry newText newEntry
    have same : newEntry.unspelled = entry.unspelled :=
      congrArg (Section.melody · "") (cut.ofText_reordered reordered key read)
    constructor
    · intro settings
      rw [← Layout.ofSection_unspelled settings newEntry, same, Layout.ofSection_unspelled]
    · intro before after tempo
      rw [← Timeline.schedule_unspelled (before ++ newEntry :: after), List.map_append,
        List.map_cons, same, ← List.map_cons, ← List.map_append, Timeline.schedule_unspelled]

/-- A sharp third, an octave up and halved, with its three modifiers turned around. -/
theorem modifier_order_of_sharp_third :
    let modifiers := ['#', '\'', '_']
    let others := ['_', '#', '\'']
    let pieces : List Piece := [⟨['('], .note '3' modifiers⟩, ⟨[' '], .note '5' []⟩]
    let newPieces : List Piece := [⟨['('], .note '3' others⟩, ⟨[' '], .note '5' []⟩]
    let entry : Section Rat := .melody (Melody.ofText Key.cMajor "(3#'_ 5)") "(3#'_ 5)"
    let newEntry : Section Rat := .melody (Melody.ofText Key.cMajor "(3_#' 5)") "(3_#' 5)"
    '3' ∈ degreeDigits ∧ modifiers.Perm others ∧ (∀ c ∈ modifiers, c ∈ noteModifiers) ∧
      List.Forall₂ Piece.Reordered pieces newPieces ∧
      (∃ note : Note Rat, (Melody.ofText Key.cMajor "3#'_").events = [.note note] ∧
        (Melody.ofText Key.cMajor "3_#'").events = [.note { note with source := "3_#'" }]) ∧
      Layout.ofSection (⟨20, 20⟩ : Settings Rat) newEntry = Layout.ofSection ⟨20, 20⟩ entry ∧
      Timeline.schedule [newEntry] 120 = Timeline.schedule [entry] 120 := by
  intro modifiers others pieces newPieces entry newEntry
  have permuted : modifiers.Perm others := by decide
  have marks : ∀ c ∈ modifiers, c ∈ noteModifiers := by simp [modifiers, noteModifiers]
  have reordered : List.Forall₂ Piece.Reordered pieces newPieces :=
    .cons ⟨rfl, .note '3' permuted⟩ (.cons ⟨rfl, .note '5' (List.Perm.refl [])⟩ .nil)
  have cut : IsCut [] pieces [')'] := by
    simp [pieces, modifiers, IsCut, Notation.IsGap, Notation.Skippable, Notation.Token.Stands,
      Notation.IsNote, Notation.barGlyphs, degreeDigits, noteModifiers, Notation.Token.chars]
  obtain ⟨tokens, texts⟩ := modifier_order_never_matters (α := Rat) (β := Rat) Key.cMajor
  obtain ⟨found, last, isCut, read, same⟩ := texts "(3#'_ 5)"
  obtain ⟨rfl, rfl⟩ := cut.unique isCut read.symm
  obtain ⟨drawn, played⟩ := same newPieces reordered
  exact ⟨by decide, permuted, marks, reordered,
    tokens '3' (by decide) modifiers others permuted marks, drawn ⟨20, 20⟩, played [] [] 120⟩

end Jianpu
