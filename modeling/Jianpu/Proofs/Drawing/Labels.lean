import Jianpu.Drawing.Layout
import Mathlib.Data.List.Basic

/-! Labels in a drawing. Every note is drawn as its label, whose first glyph stands at the
note's centre, and ornaments around it; the ornaments and the canvas do not depend on
the label. -/

set_option autoImplicit false

namespace Jianpu

open Number (Amount Coordinate Scalar)
open Notation (Melody Note Section)

/-! What is painted -/

/-- The glyph that stands at the centre of a note; it is the only kind of its weight. -/
def Primitive.noteGlyph? {α : Type} : Primitive α → Option (Glyph α)
  | .glyph g => if g.fontWeight = "500" then some g else none
  | .line .. | .dot .. => none

/-- A primitive without what a label says: no accidental signs, which are the only glyphs that
start at their reference point, and no text in the glyphs of notes. -/
def Primitive.unlabelled? {α : Type} : Primitive α → Option (Primitive α)
  | .glyph g =>
    if g.anchor = "start" then none
    else if g.fontWeight = "500" then some (.glyph { g with text := "" })
    else some (.glyph g)
  | .line x1 y1 x2 y2 strokeWidth => some (.line x1 y1 x2 y2 strokeWidth)
  | .dot x y radius => some (.dot x y radius)

/-- The glyphs of the notes of a drawing. -/
def Drawing.noteGlyphs {α : Type} (drawing : Drawing α) : List (Glyph α) :=
  drawing.primitives.filterMap Primitive.noteGlyph?

/-- What the glyphs of the notes say. -/
def Drawing.noteTexts {α : Type} (drawing : Drawing α) : List String :=
  drawing.noteGlyphs.map (·.text)

/-- A drawing without what the labels say. -/
def Drawing.unlabelled {α : Type} (drawing : Drawing α) : Drawing α :=
  ⟨drawing.canvas, drawing.primitives.filterMap Primitive.unlabelled?⟩

namespace Layout

variable {α δ : Type} [Scalar α]

/-! The parts of a note -/

/-- What is painted for a note besides its label. -/
def ornaments (note : Note δ) (centre : Point α) (next : Option (Note δ × Point α)) :
    List (Primitive α) :=
  let joined := next.bind fun (following, place) =>
    if beamJoins note following then some place else none
  (if note.dotted then [.dot (centre.x + pixels 14) centre.y (Scalar.decimal 25 1)] else [])
    ++ (List.range note.dashes).map (dashGlyph centre)
    ++ (List.range note.beams).flatMap fun tier => tierLines centre joined (tier + 1)

theorem notePrimitives_eq (note : Note δ) (centre : Point α)
    (next : Option (Note δ × Point α)) :
    notePrimitives note centre next =
      labelGlyphs note.label centre ++ ornaments note centre next := by
  simp only [notePrimitives, ornaments, List.append_assoc]

theorem noteGlyphs_labelGlyphs (label : String) (centre : Point α) :
    (labelGlyphs label centre).filterMap Primitive.noteGlyph? =
      [{ x := centre.x, y := centre.y, text := String.ofList (label.toList.take 1) }] := by
  simp only [labelGlyphs]
  split <;> simp [Primitive.noteGlyph?]

theorem unlabelled_labelGlyphs (label : String) (centre : Point α) :
    (labelGlyphs label centre).filterMap Primitive.unlabelled? =
      [.glyph { x := centre.x, y := centre.y, text := "" }] := by
  simp only [labelGlyphs]
  split <;> simp [Primitive.unlabelled?]

theorem plain_of_tierLines {centre : Point α} {joined : Option (Point α)} {tier : Nat} :
    ∀ primitive ∈ tierLines centre joined tier,
      primitive.noteGlyph? = none ∧ primitive.unlabelled? = some primitive := by
  unfold tierLines
  split
  · simp
  · split <;> simp [Primitive.noteGlyph?, Primitive.unlabelled?]

/-- An ornament is no glyph of a note and no part of a label. -/
theorem plain_of_ornaments {note : Note δ} {centre : Point α}
    {next : Option (Note δ × Point α)} :
    ∀ primitive ∈ ornaments note centre next,
      primitive.noteGlyph? = none ∧ primitive.unlabelled? = some primitive := by
  intro primitive member
  rcases List.mem_append.mp member with front | line
  · rcases List.mem_append.mp front with dot | dash
    · split at dot
      · rw [List.mem_singleton.mp dot]
        exact ⟨rfl, rfl⟩
      · cases dot
    · obtain ⟨index, -, rfl⟩ := List.mem_map.mp dash
      simp [dashGlyph, Primitive.noteGlyph?, Primitive.unlabelled?]
  · obtain ⟨tier, -, inside⟩ := List.mem_flatMap.mp line
    exact plain_of_tierLines primitive inside

theorem noteGlyphs_ornaments (note : Note δ) (centre : Point α)
    (next : Option (Note δ × Point α)) :
    (ornaments note centre next).filterMap Primitive.noteGlyph? = [] :=
  List.filterMap_eq_nil_iff.mpr fun primitive member => (plain_of_ornaments primitive member).1

/-! The glyphs of the notes -/

/-- What stands at the centre of a note: the first character of its label. -/
def centreText (note : Note δ) : String :=
  String.ofList (note.label.toList.take 1)

/-- Each note of a drawing has one glyph, at its centre. -/
theorem noteGlyphs_primitivesOf (entries : List (Note δ × Point α)) :
    (primitivesOf entries).filterMap Primitive.noteGlyph? = entries.map fun (note, centre) =>
      { x := centre.x, y := centre.y, text := centreText note } := by
  induction entries with
  | nil => rfl
  | cons entry entries ih =>
      obtain ⟨note, centre⟩ := entry
      rw [primitivesOf, notePrimitives_eq, List.filterMap_append, List.filterMap_append,
        noteGlyphs_labelGlyphs, noteGlyphs_ornaments, ih]
      rfl

theorem noteGlyphs_ofChords (glyphs : List Text.CodePoint) (settings : Settings α) :
    (ofChords glyphs settings).noteGlyphs = [] := by
  rw [Drawing.noteGlyphs, List.filterMap_eq_nil_iff]
  intro primitive member
  obtain ⟨glyph, -, rfl⟩ := List.mem_map.mp member
  simp [Primitive.noteGlyph?]

theorem map_fst_placed (notes : List (Note δ)) (settings : Settings α) :
    (placed notes settings).map Prod.fst = notes := by
  rw [placed, List.map_map]
  exact List.zipIdx_map_fst 0 notes

theorem noteTexts_ofNotes (notes : List (Note δ)) (settings : Settings α) :
    (ofNotes notes settings).noteTexts = notes.map centreText := by
  conv_rhs => rw [← map_fst_placed notes settings]
  rw [Drawing.noteTexts, Drawing.noteGlyphs, ofNotes, noteGlyphs_primitivesOf, List.map_map,
    List.map_map]
  rfl

theorem noteTexts_ofSections (settings : Settings α) (sections : List (Section δ)) :
    (sections.flatMap fun entry => (ofSection settings entry).noteTexts) =
      ((sections.filterMap Section.melody?).flatMap Melody.notes).map centreText := by
  induction sections with
  | nil => rfl
  | cons entry sections ih =>
      rw [List.flatMap_cons, ih]
      cases entry with
      | chords glyphs source =>
          rw [ofSection, Drawing.noteTexts, noteGlyphs_ofChords]
          rfl
      | melody meaning source =>
          rw [ofSection, noteTexts_ofNotes, ← List.map_append]
          rfl

/-! Drawings without labels -/

section Map

variable {f : Note δ → Note δ} (steps : ∀ note, (f note).staffStep = note.staffStep)

include steps

theorem canvasOf_map (notes : List (Note δ)) (settings : Settings α) :
    canvasOf (notes.map f) settings = canvasOf notes settings := by
  have same : (notes.map f).map (·.staffStep) = notes.map (·.staffStep) := by
    rw [List.map_map]
    exact List.map_congr_left fun note _ => steps note
  rw [canvasOf, canvasOf, same]

theorem placed_map (notes : List (Note δ)) (settings : Settings α) :
    placed (notes.map f) settings = (placed notes settings).map (Prod.map f id) := by
  simp only [placed, canvasOf_map steps, List.zipIdx_map, List.map_map]
  refine List.map_congr_left fun entry _ => ?_
  simp [centre, steps]

end Map

/-- Notes for which the same is painted, wherever they stand, are not told apart. -/
theorem primitivesOf_map {f : Note δ → Note δ}
    (same : ∀ note (centre : Point α) next,
      notePrimitives (f note) centre (next.map (Prod.map f id)) = notePrimitives note centre next)
    (entries : List (Note δ × Point α)) :
    primitivesOf (entries.map (Prod.map f id)) = primitivesOf entries := by
  induction entries with
  | nil => rfl
  | cons entry entries ih =>
      obtain ⟨note, centre⟩ := entry
      rw [List.map_cons, Prod.map_apply, primitivesOf, primitivesOf, List.head?_map, ih, same]
      rfl

/-- Notes with the same ornaments cannot be told apart by one for whom all labels look the same, when
what is seen of a drawing is seen of its parts. -/
theorem seen_primitivesOf_map {β : Type} {f : Note δ → Note δ} {seen : List (Primitive α) → β}
    (append : ∀ {front otherFront back otherBack}, seen front = seen otherFront →
      seen back = seen otherBack → seen (front ++ back) = seen (otherFront ++ otherBack))
    (labels : ∀ label other (centre : Point α),
      seen (labelGlyphs label centre) = seen (labelGlyphs other centre))
    (same : ∀ note (centre : Point α) next, ornaments (f note) centre (next.map (Prod.map f id)) =
      ornaments note centre next)
    (entries : List (Note δ × Point α)) :
    seen (primitivesOf (entries.map (Prod.map f id))) = seen (primitivesOf entries) := by
  induction entries with
  | nil => rfl
  | cons entry entries ih =>
      obtain ⟨note, centre⟩ := entry
      rw [List.map_cons, Prod.map_apply, primitivesOf, List.head?_map, notePrimitives_eq, same,
        primitivesOf, notePrimitives_eq]
      exact append (append (labels _ _ centre) rfl) ih

/-! Drawings in amounts -/

/-- What is painted, without what labels say; `none` when the place of something is missing. -/
def completeUnlabelled? (primitives : List (Primitive Coordinate)) :
    Option (List (Primitive Amount)) :=
  (primitives.mapM Primitive.complete?).map (List.filterMap Primitive.unlabelled?)

theorem completeUnlabelled?_append (front back : List (Primitive Coordinate)) :
    completeUnlabelled? (front ++ back) = do
      return (← completeUnlabelled? front) ++ (← completeUnlabelled? back) := by
  simp only [completeUnlabelled?, List.mapM_append]
  cases front.mapM Primitive.complete? with
  | none => rfl
  | some first =>
      cases back.mapM Primitive.complete? with
      | none => rfl
      | some rest => exact congrArg some List.filterMap_append

/-- A coordinate that is present can be moved by a whole number in the range of binary64. -/
theorem isSome_add_pixels (offset : Int) (finite : (Number.Binary64.ofInt? offset).isSome)
    (amount : Amount) : ((some amount : Coordinate) + pixels offset).isSome := by
  obtain ⟨rounded, found⟩ := Option.isSome_iff_exists.mp finite
  cases amount with
  | whole n => rfl
  | real x =>
      show (Amount.combine (· + ·) (· + ·) (.real x) (.whole offset)).isSome
      simp [Amount.combine, Amount.toFloat?, found]

/-- A label is in its place when the note is, whether it has an accidental sign or not. -/
theorem completeUnlabelled?_labelGlyphs (label : String) (centre : Point Coordinate) :
    completeUnlabelled? (labelGlyphs label centre) = do
      return [.glyph { x := ← centre.x, y := ← centre.y, text := "" }] := by
  obtain ⟨x, y⟩ := centre
  cases x with
  | none => rfl
  | some x =>
      cases y with
      | none => rfl
      | some y =>
          obtain ⟨right, atRight⟩ := Option.isSome_iff_exists.mp
            (isSome_add_pixels 10 (by decide +kernel) x)
          obtain ⟨above, atAbove⟩ := Option.isSome_iff_exists.mp
            (isSome_add_pixels (-8) (by decide +kernel) y)
          simp only [labelGlyphs, atRight, atAbove]
          split <;> rfl

/-- Whether a drawing is complete can be told without its labels. -/
theorem unlabelled_complete? (drawing : Drawing Coordinate) :
    drawing.complete?.map Drawing.unlabelled = do
      return ⟨← drawing.canvas.complete?, ← completeUnlabelled? drawing.primitives⟩ := by
  rw [Drawing.complete?, completeUnlabelled?]
  cases drawing.canvas.complete? with
  | none => rfl
  | some canvas => cases drawing.primitives.mapM Primitive.complete? <;> rfl

/-- What every item keeps is kept of all items in a row. -/
theorem flatMap_of_mapM {β γ ε : Type} {f : β → Option γ} {before : β → List ε}
    {after : γ → List ε} (keeps : ∀ {item image}, f item = some image → after image = before item)
    {items : List β} {images : List γ} (mapped : items.mapM f = some images) :
    images.flatMap after = items.flatMap before := by
  induction items generalizing images with
  | nil =>
      obtain rfl := Option.some.inj mapped
      rfl
  | cons item items ih =>
      rw [List.mapM_cons] at mapped
      obtain ⟨image, first, rest⟩ := Option.bind_eq_some_iff.mp mapped
      obtain ⟨others, behind, whole⟩ := Option.bind_eq_some_iff.mp rest
      obtain rfl := Option.some.inj whole
      rw [List.flatMap_cons, List.flatMap_cons, keeps first, ih behind]

theorem noteText_complete? {primitive : Primitive Coordinate} {complete : Primitive Amount}
    (found : primitive.complete? = some complete) :
    (complete.noteGlyph?.map (·.text)).toList = (primitive.noteGlyph?.map (·.text)).toList := by
  cases primitive <;>
    simp only [Primitive.complete?, Option.bind_eq_bind, Option.bind_eq_some_iff, Option.pure_def,
      Option.some.injEq] at found
  case glyph g =>
    obtain ⟨x, -, y, -, rfl⟩ := found
    simp only [Primitive.noteGlyph?]
    split <;> rfl
  case line =>
    obtain ⟨_, -, _, -, _, -, _, -, _, -, rfl⟩ := found
    rfl
  case dot =>
    obtain ⟨_, -, _, -, _, -, rfl⟩ := found
    rfl

theorem noteTexts_eq_flatMap {α : Type} (drawing : Drawing α) :
    drawing.noteTexts =
      drawing.primitives.flatMap fun primitive =>
        (primitive.noteGlyph?.map (·.text)).toList := by
  rw [Drawing.noteTexts, Drawing.noteGlyphs, List.map_filterMap,
    List.filterMap_eq_flatMap_toList]

theorem noteTexts_complete? {drawing : Drawing Coordinate} {complete : Drawing Amount}
    (found : drawing.complete? = some complete) : complete.noteTexts = drawing.noteTexts := by
  obtain ⟨canvas, -, rest⟩ := Option.bind_eq_some_iff.mp found
  obtain ⟨painted, all, whole⟩ := Option.bind_eq_some_iff.mp rest
  obtain rfl := Option.some.inj whole
  rw [noteTexts_eq_flatMap, noteTexts_eq_flatMap]
  exact flatMap_of_mapM noteText_complete? all

end Layout

end Jianpu
