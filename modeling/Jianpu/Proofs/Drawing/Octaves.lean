import Jianpu.Proofs.Drawing.Extent
import Jianpu.Proofs.Drawing.Labels
import Jianpu.Proofs.Notation.Octaves
import Jianpu.Proofs.Timeline.Tones

/-! A melody in other octaves. Its drawing shows the same primitives on a canvas of the
same size, since notes stand as far as before from the highest of them; only the baseline,
which marks degree 1 of the reference octave, moves away. Its tones keep their times. -/

set_option autoImplicit false

namespace Jianpu

open Notation (IsCut Melody Note Piece Section written)
open Number (Divisible Scalar)

namespace Layout

variable {δ : Type}

/-! Canvas -/

theorem highest_shifted (shift first : Int) (rest : List Int) :
    highest (first + shift) (rest.map (· + shift)) = highest first rest + shift := by
  induction rest generalizing first with
  | nil => rfl
  | cons step rest ih =>
      have larger : max (first + shift) (step + shift) = max first step + shift :=
        max_add_add_right first step shift
      rw [highest, List.map_cons, List.foldl_cons, larger]
      exact ih (max first step)

theorem lowest_shifted (shift first : Int) (rest : List Int) :
    lowest (first + shift) (rest.map (· + shift)) = lowest first rest + shift := by
  induction rest generalizing first with
  | nil => rfl
  | cons step rest ih =>
      have smaller : min (first + shift) (step + shift) = min first step + shift :=
        min_add_add_right first step shift
      rw [lowest, List.map_cons, List.foldl_cons, smaller]
      exact ih (min first step)

variable (octaves : Int) (settings : Settings Rat)

/-- How far the baseline of a melody moves; without notes it stands still. -/
def baselineShift (notes : List (Note δ)) : Rat :=
  if notes.isEmpty then 0 else 7 * octaves * settings.scale

theorem canvasOf_raised (notes : List (Note δ)) :
    canvasOf (notes.map (Note.raised octaves)) settings =
      { canvasOf notes settings with
        baseline := (canvasOf notes settings).baseline +
          baselineShift octaves settings notes } := by
  cases notes with
  | nil =>
      have still : baselineShift octaves settings ([] : List (Note δ)) = 0 := if_pos rfl
      rw [still, add_zero]
      rfl
  | cons note notes =>
      have steps : (notes.map (Note.raised octaves)).map (·.staffStep) =
          (notes.map (·.staffStep)).map (· + 7 * octaves) := by
        rw [List.map_map, List.map_map]
        rfl
      have first : (note.raised octaves).staffStep = note.staffStep + 7 * octaves := rfl
      rw [List.map_cons, canvasOf_cons, canvasOf_cons, steps, first, highest_shifted,
        lowest_shifted, List.length_map, baselineShift, if_neg (by simp)]
      push_cast
      ring_nf

theorem centre_raised {notes : List (Note δ)} {note : Note δ} (member : note ∈ notes)
    (baseline : Rat) (index : Nat) :
    centre settings (baseline + baselineShift octaves settings notes) index
      (note.raised octaves) = centre settings baseline index note := by
  have sounding : ¬ notes.isEmpty = true :=
    fun empty => List.ne_nil_of_mem member (List.isEmpty_iff.mp empty)
  have step : (note.raised octaves).staffStep = note.staffStep + 7 * octaves := rfl
  simp only [centre, step, baselineShift, if_neg sounding, pixels_rat]
  push_cast
  ring_nf

theorem placed_raised (notes : List (Note δ)) :
    placed (notes.map (Note.raised octaves)) settings =
      (placed notes settings).map fun entry => (entry.1.raised octaves, entry.2) := by
  refine List.ext_getElem? fun index => ?_
  rw [getElem?_placed, List.getElem?_map, List.getElem?_map, getElem?_placed, canvasOf_raised,
    Option.map_map, Option.map_map]
  refine Option.map_congr fun note found => ?_
  exact congrArg (Prod.mk (note.raised octaves))
    (centre_raised octaves settings (List.mem_of_getElem? found) _ index)

theorem notePrimitives_raised {α : Type} [Scalar α] (note : Note δ) (place : Point α)
    (next : Option (Note δ × Point α)) :
    notePrimitives (note.raised octaves) place
        (next.map fun entry => (entry.1.raised octaves, entry.2)) =
      notePrimitives note place next := by
  cases next <;> rfl

theorem primitivesOf_raised {α : Type} [Scalar α] (entries : List (Note δ × Point α)) :
    primitivesOf (entries.map fun entry => (entry.1.raised octaves, entry.2)) =
      primitivesOf entries :=
  primitivesOf_map (notePrimitives_raised octaves) entries

/-- The drawing of a melody in other octaves is the same but for the baseline. -/
theorem ofNotes_raised (notes : List (Note δ)) :
    ofNotes (notes.map (Note.raised octaves)) settings =
      ⟨{ canvasOf notes settings with
          baseline := (canvasOf notes settings).baseline + baselineShift octaves settings notes },
        (ofNotes notes settings).primitives⟩ := by
  rw [ofNotes, canvasOf_raised, placed_raised, primitivesOf_raised, ofNotes]

end Layout

/-! Tones -/

namespace Timeline

variable {α : Type} [Scalar α] (beat origin : α) (octaves : Int)

theorem tonesFrom_raised (offset : α) (notes : List (Note α)) :
    tonesFrom beat origin offset (notes.map (Note.raised octaves)) =
      (tonesFrom beat origin offset notes).map (Tone.transposed (12 * octaves)) :=
  tonesFrom_map (f := Note.raised octaves) beat origin (fun _ => rfl) (fun _ => rfl) offset notes

theorem schedule_raised [Divisible α] (melody : Melody α) (source moved : String) (tempo : α) :
    schedule [.melody (melody.raised octaves) moved] tempo =
      (schedule [.melody melody source] tempo).map
        (List.map (Tone.transposed (12 * octaves))) := by
  rw [schedule, schedule]
  cases secondsPerBeat tempo with
  | error fault => rfl
  | ok beat =>
      refine congrArg Except.ok ?_
      simp only [List.filterMap_cons, List.filterMap_nil, Section.melody?, tonesOf,
        List.append_nil, Melody.notes_raised]
      exact tonesFrom_raised beat Scalar.zero octaves Scalar.zero melody.notes

end Timeline

/-- Octave marks that are put in right after the digit of every note change the octaves, staff
steps and pitches of the notes and how they are written, and nothing else of what a melody means.
The drawing has the same primitives on a canvas as wide and as high, whose baseline alone moves,
by seven staff steps for every octave. The tones keep their times and move by twelve semitones. -/
theorem octave_marks_leave_drawing (octaves : Int) (key : Key) (text : String)
    (settings : Settings Rat) (tempo : Rat) :
    ∃ pieces last, IsCut [] pieces last ∧ written pieces last = text.toList ∧
      let moved := String.ofList (written (pieces.map (Piece.raised octaves)) last)
      let melody := Melody.ofText (α := Rat) key text
      let drawing := Layout.ofSection settings (.melody melody text)
      Melody.ofText key moved = melody.raised octaves ∧
        Layout.ofSection settings (.melody (Melody.ofText (α := Rat) key moved) moved) =
          { drawing with
            canvas.baseline := drawing.canvas.baseline +
              Layout.baselineShift octaves settings melody.notes } ∧
        Timeline.schedule [.melody (Melody.ofText key moved) moved] tempo =
          (Timeline.schedule [.melody melody text] tempo).map
            (List.map (Tone.transposed (12 * octaves))) := by
  obtain ⟨pieces, last, cut, read⟩ := Notation.exists_cut [] text.toList (by simp)
  refine ⟨pieces, last, cut, read, ?_⟩
  intro moved melody drawing
  have raised : Melody.ofText key moved = melody.raised octaves :=
    Notation.ofText_raised octaves key cut read
  refine ⟨raised, ?_, ?_⟩
  · rw [raised, Layout.ofSection, Melody.notes_raised, Layout.ofNotes_raised]
    rfl
  · rw [raised]
    exact Timeline.schedule_raised octaves melody text moved tempo

/-- The canvas of a note an octave higher has its baseline further down. -/
theorem octave_mark_moves_baseline :
    written ([⟨[], .note '1' []⟩].map (Piece.raised 1)) [] = "1'".toList ∧
      (Layout.ofSection (⟨20, 20⟩ : Settings Rat)
        (Block.meaning (α := Rat) Key.cMajor ⟨.melody, "1"⟩)).canvas.baseline = 30 ∧
      (Layout.ofSection (⟨20, 20⟩ : Settings Rat)
        (Block.meaning (α := Rat) Key.cMajor ⟨.melody, "1'"⟩)).canvas.baseline = 170 := by
  decide +kernel

end Jianpu
