import Jianpu.Proofs.Drawing.Heights
import Mathlib.Logic.Relation

/-! Melodies that get longer. Notes that come in anywhere only ever widen the canvas, and unless
there was no note before they only raise it and lower its baseline. Bars take no place on it. -/

set_option autoImplicit false

namespace Jianpu

open Notation (Event Note Section notesOf)

/-! Bars -/

namespace Notation

variable {δ : Type}

/-- A bar that is put in or taken out somewhere. -/
inductive BarEdit : List (Event δ) → List (Event δ) → Prop where
  | inserted (front back : List (Event δ)) (marker : String) :
      BarEdit (front ++ back) (front ++ .bar marker :: back)
  | removed (front back : List (Event δ)) (marker : String) :
      BarEdit (front ++ .bar marker :: back) (front ++ back)

theorem notesOf_around_bar (front back : List (Event δ)) (marker : String) :
    notesOf (front ++ .bar marker :: back) = notesOf (front ++ back) := by
  simp only [notesOf, List.filterMap_append, List.filterMap_cons]

theorem BarEdit.notesOf_eq {first second : List (Event δ)} (edit : BarEdit first second) :
    notesOf first = notesOf second := by
  cases edit with
  | inserted front back marker => exact (notesOf_around_bar front back marker).symm
  | removed front back marker => exact notesOf_around_bar front back marker

/-- However many bars come and go, the notes stay. -/
theorem notesOf_of_barEdits {first second : List (Event δ)}
    (edits : Relation.ReflTransGen BarEdit first second) : notesOf first = notesOf second := by
  induction edits with
  | refl => rfl
  | tail _ edit ih => exact ih.trans edit.notesOf_eq

end Notation

namespace Layout

variable {δ : Type} {part whole : List (Note δ)} {settings : Settings Rat}

/-! Canvas -/

/-- The floor of 100 makes the formula good for a melody without notes too. -/
theorem width_canvasOf (notes : List (Note δ)) (spacing : 0 ≤ settings.spacing) :
    (canvasOf notes settings).width =
      max 100 (((notes.length : Rat) - 1) * settings.spacing + 40) := by
  cases notes with
  | nil =>
      have narrow : (((0 : Nat) : Rat) - 1) * settings.spacing + 40 ≤ 100 := by
        push_cast
        linarith
      have empty : (canvasOf ([] : List (Note δ)) settings).width = 100 := rfl
      rw [empty, List.length_nil, max_eq_left narrow]
  | cons note notes =>
      have others : (((note :: notes).length : Nat) : Rat) - 1 = notes.length := by
        rw [List.length_cons]
        push_cast
        ring
      rw [canvasOf_cons, others]

theorem width_canvasOf_le (spacing : 0 ≤ settings.spacing) (among : part.Sublist whole) :
    (canvasOf part settings).width ≤ (canvasOf whole settings).width := by
  have counted : (part.length : Rat) ≤ whole.length := by
    exact_mod_cast among.length_le
  have spread := mul_le_mul_of_nonneg_right (sub_le_sub_right counted 1) spacing
  rw [width_canvasOf part spacing, width_canvasOf whole spacing]
  apply max_le_max_left
  linarith

/-- More notes leave no less room above and below degree 1 of the reference octave. -/
theorem heights_canvasOf_le (scale : 0 ≤ settings.scale) (among : part.Sublist whole)
    (sounding : part ≠ []) :
    (canvasOf part settings).height ≤ (canvasOf whole settings).height ∧
      (canvasOf part settings).baseline ≤ (canvasOf whole settings).baseline := by
  have alsoSounding : whole ≠ [] := by
    intro silent
    subst silent
    exact sounding (List.sublist_nil.mp among)
  obtain ⟨top, highest⟩ := exists_isHighest sounding
  obtain ⟨bottom, lowest⟩ := exists_isLowest sounding
  obtain ⟨peak, peakHighest⟩ := exists_isHighest alsoSounding
  obtain ⟨valley, valleyLowest⟩ := exists_isLowest alsoSounding
  obtain ⟨baseline, height⟩ := canvasOf_between settings highest lowest
  obtain ⟨newBaseline, newHeight⟩ := canvasOf_between settings peakHighest valleyLowest
  have above : (top.staffStep : Rat) ≤ peak.staffStep :=
    Int.cast_le.mpr (peakHighest.2 top (among.subset highest.1))
  have below : (valley.staffStep : Rat) ≤ bottom.staffStep :=
    Int.cast_le.mpr (valleyLowest.2 bottom (among.subset lowest.1))
  have raised := mul_le_mul_of_nonneg_right above scale
  have span := mul_le_mul_of_nonneg_right (sub_le_sub above below) scale
  constructor
  · rw [height, newHeight]
    linarith
  · rw [baseline, newBaseline]
    linarith

/-- Where the notes of a melody are among those of another one, in their order, the canvas of the
other one is at least as wide, and if there is a note at all it is at least as high and has its
baseline at least as far down. Bars that are put in and taken out change nothing that is drawn. -/
theorem canvas_grows_with_notes (settings : Settings Rat) (spacing : 0 ≤ settings.spacing)
    (scale : 0 ≤ settings.scale) :
    (∀ part whole : List (Event δ), (notesOf part).Sublist (notesOf whole) →
      let canvas := canvasOf (notesOf part) settings
      let grown := canvasOf (notesOf whole) settings
      canvas.width ≤ grown.width ∧
        (notesOf part ≠ [] → canvas.height ≤ grown.height ∧ canvas.baseline ≤ grown.baseline)) ∧
      ∀ first second : List (Event δ), Relation.ReflTransGen Notation.BarEdit first second →
        ∀ total newTotal source newSource,
          ofSection settings (.melody ⟨second, newTotal⟩ newSource) =
            ofSection settings (.melody ⟨first, total⟩ source) := by
  constructor
  · intro part whole among canvas grown
    exact ⟨width_canvasOf_le spacing among, heights_canvasOf_le scale among⟩
  · intro first second edits total newTotal source newSource
    have same : notesOf second = notesOf first := (Notation.notesOf_of_barEdits edits).symm
    exact congrArg (fun notes => ofNotes notes settings) same

/-- A high and a low note around a third, behind a bar, make the canvas of the third higher. -/
theorem canvas_grows_around_third :
    let settings : Settings Rat := ⟨20, 10⟩
    let third : Event Rat := .note (Notation.noteOf Key.cMajor '3' [])
    let high : Event Rat := .note (Notation.noteOf Key.cMajor '1' ['\''])
    let low : Event Rat := .note (Notation.noteOf Key.cMajor '5' [','])
    let part := [third]
    let whole := [high, .bar "|", third, low]
    (notesOf part).Sublist (notesOf whole) ∧
      (canvasOf (notesOf part) settings).width ≤ (canvasOf (notesOf whole) settings).width ∧
      (canvasOf (notesOf part) settings).height ≤ (canvasOf (notesOf whole) settings).height ∧
      (canvasOf (notesOf part) settings).baseline ≤ (canvasOf (notesOf whole) settings).baseline ∧
      ofSection settings (.melody ⟨[high, third, low], 3⟩ "1' 3 5,") =
        ofSection settings (.melody ⟨whole, 3⟩ "1' | 3 5,") := by
  intro settings third high low part whole
  have among : (notesOf part).Sublist (notesOf whole) :=
    .cons _ (.cons_cons _ (.cons _ .slnil))
  obtain ⟨grows, stays⟩ := canvas_grows_with_notes (δ := Rat) settings (by norm_num [settings])
    (by norm_num [settings])
  obtain ⟨width, heights⟩ := grows part whole among
  obtain ⟨height, baseline⟩ := heights (List.cons_ne_nil _ _)
  refine ⟨among, width, height, baseline, ?_⟩
  exact stays whole [high, third, low] (.single (.removed [high] [third, low] "|")) _ _ _ _

end Layout

end Jianpu
