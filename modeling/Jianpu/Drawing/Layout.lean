import Jianpu.Document
import Jianpu.Drawing

set_option autoImplicit false

/-!
The layout of a block. Notes stand at equal distances from left to right and at the height of their
staff step; the canvas is as wide as the count of notes asks and as high as the span of their steps.
Chord glyphs stand in one row.
-/
namespace Jianpu.Layout

open Number (Scalar Amount Coordinate)
open Notation (Note Section)

variable {α δ : Type} [Scalar α]

/-- A whole number of pixels. -/
def pixels (n : Int) : α := Scalar.ofInt n

/-- The least of a nonempty list of steps, given its first element. -/
def lowest (first : Int) (rest : List Int) : Int :=
  rest.foldl min first

/-- The greatest of a nonempty list of steps, given its first element. -/
def highest (first : Int) (rest : List Int) : Int :=
  rest.foldl max first

/-- The canvas of a melody: at least 100 wide, with 40 around the notes; as high as the span of the
steps, with 60 around it. A melody without notes gets a fixed canvas. -/
def canvasOf (notes : List (Note δ)) (settings : Settings α) : Canvas α :=
  match notes.map (·.staffStep) with
  | [] => ⟨pixels 100, pixels 200, pixels 100⟩
  | first :: rest =>
    let top := highest first rest
    let bottom := lowest first rest
    { width := Scalar.larger (pixels 100) (pixels rest.length * settings.spacing + pixels 40)
      height := pixels (top - bottom) * settings.scale + pixels 60
      baseline := pixels top * settings.scale + Scalar.decimal 30 0 }

/-- A point on the canvas. -/
structure Point (α : Type) where
  x : α
  y : α

/-- The centre of the note at an index; higher notes have smaller y. -/
def centre (settings : Settings α) (baseline : α) (index : Nat) (note : Note δ) : Point α :=
  { x := pixels 20 + pixels index * settings.spacing
    y := baseline - pixels note.staffStep * settings.scale }

/-- True when a beam joins a note to the next one: both have the same number of beams, at least one. -/
def beamJoins (note next : Note δ) : Bool :=
  1 ≤ note.beams && next.beams == note.beams

/-- The distance of a beam tier below the centre of its note. -/
def tierOffset? : Nat → Option Int
  | 1 => some 14
  | 2 => some 20
  | _ => none

/-- The lines of one beam tier: a stub under the note, and a connector from its right end to the left
end of the next note's stub when a beam joins the two. -/
def tierLines (centre : Point α) (joined : Option (Point α)) (tier : Nat) : List (Primitive α) :=
  match tierOffset? tier with
  | none => []
  | some offset =>
    let y := centre.y + pixels offset
    let stub :=
      .line (centre.x - pixels 8) y (centre.x + pixels 8) y (pixels 2)
    match joined with
    | none => [stub]
    | some next =>
      [stub,
        .line (centre.x + pixels 8) y (next.x - pixels 8) (next.y + pixels offset) (pixels 2)]

/-- The label of a note: its first character at the centre, and the accidental sign small and raised
to the right of it. -/
def labelGlyphs (label : String) (centre : Point α) : List (Primitive α) :=
  let sign := label.toList.drop 1
  .glyph { x := centre.x, y := centre.y, text := String.ofList (label.toList.take 1) }
    :: if sign.isEmpty then []
      else
        [.glyph
          { x := centre.x + pixels 10, y := centre.y + pixels (-8), text := String.ofList sign
            fontSize := 14, fontWeight := "bold", anchor := "start", centered := false }]

/-- The dash of an extension, each 20 to the right of the one before. -/
def dashGlyph (centre : Point α) (index : Nat) : Primitive α :=
  .glyph
    { x := centre.x + pixels 24 + pixels (index * 20), y := centre.y, text := "-"
      fontWeight := "normal" }

/-- Everything painted for a note, given the note after it. -/
def notePrimitives (note : Note δ) (centre : Point α) (next : Option (Note δ × Point α)) :
    List (Primitive α) :=
  let joined := next.bind fun (following, place) =>
    if beamJoins note following then some place else none
  labelGlyphs note.label centre
    ++ (if note.dotted then [.dot (centre.x + pixels 14) centre.y (Scalar.decimal 25 1)] else [])
    ++ (List.range note.dashes).map (dashGlyph centre)
    ++ (List.range note.beams).flatMap fun tier => tierLines centre joined (tier + 1)

/-- Everything painted for notes with their centres, in order. -/
def primitivesOf : List (Note δ × Point α) → List (Primitive α)
  | [] => []
  | (note, place) :: rest => notePrimitives note place rest.head? ++ primitivesOf rest

/-- The notes of a melody with their centres. -/
def placed (notes : List (Note δ)) (settings : Settings α) : List (Note δ × Point α) :=
  let baseline := (canvasOf notes settings).baseline
  notes.zipIdx.map fun (note, index) => (note, centre settings baseline index note)

/-- The drawing of a melody. -/
def ofNotes (notes : List (Note δ)) (settings : Settings α) : Drawing α :=
  ⟨canvasOf notes settings, primitivesOf (placed notes settings)⟩

/-- The drawing of chord text: one bold glyph per character in a row. -/
def ofChords (glyphs : List Text.CodePoint) (settings : Settings α) : Drawing α :=
  { canvas :=
      ⟨Scalar.larger (pixels 100) (pixels glyphs.length * settings.spacing + pixels 40),
        pixels 100, pixels 60⟩
    primitives := glyphs.zipIdx.map fun (glyph, index) =>
      .glyph
        { x := pixels 20 + pixels index * settings.spacing, y := pixels 60
          text := Text.ofCodePoints [glyph], fontWeight := "bold", fontFamily := "monospace"
          centered := false } }

/-- The drawing of a block. -/
def ofSection (settings : Settings α) : Section δ → Drawing α
  | .melody meaning _ => ofNotes meaning.notes settings
  | .chords glyphs _ => ofChords glyphs settings

/-- Settings as coordinates. -/
def asCoordinates (settings : Settings Amount) : Settings Coordinate :=
  ⟨some settings.spacing, some settings.scale⟩

/-- The drawing of a block in the settings of a document; `none` when a whole number is too large to
meet a measured one. -/
def draw? (settings : Settings Amount) (block : Section δ) : Option (Drawing Amount) :=
  (ofSection (asCoordinates settings) block).complete?

/-- The drawings of all blocks of a document, in order. -/
def drawings? (document : Document) : Option (List (Drawing Amount)) :=
  (document.sections (α := Float)).mapM (draw? document.settings)

end Jianpu.Layout
