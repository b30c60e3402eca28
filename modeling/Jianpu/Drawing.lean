import Jianpu.Number.Scalar

set_option autoImplicit false

/-!
Drawings: a canvas and the glyphs, lines and dots on it, in the order they are painted. The y axis
points down. Coordinates are numbers of type `α`.
-/
namespace Jianpu

open Number (Amount Coordinate)

/-- A piece of text at a reference point. -/
structure Glyph (α : Type) where
  x : α
  y : α
  text : String
  fontSize : Amount := 24
  fontWeight : String := "500"
  fontFamily : String := "sans-serif"
  /-- Which end of the text the reference point is at. -/
  anchor : String := "middle"
  /-- Whether the text is centred on the reference point vertically. -/
  centered : Bool := true

/-- Something painted. -/
inductive Primitive (α : Type) where
  | glyph (g : Glyph α)
  | line (x1 y1 x2 y2 strokeWidth : α)
  | dot (x y radius : α)

/-- The extent of a drawing, and the height at which degree 1 of the reference octave stands. -/
structure Canvas (α : Type) where
  width : α
  height : α
  baseline : α

/-- A canvas with what is painted on it. -/
structure Drawing (α : Type) where
  canvas : Canvas α
  primitives : List (Primitive α)

/-- A primitive all of whose coordinates are present. -/
def Primitive.complete? : Primitive Coordinate → Option (Primitive Amount)
  | .glyph g => do
    let x ← g.x
    let y ← g.y
    return .glyph
      { x, y, text := g.text, fontSize := g.fontSize, fontWeight := g.fontWeight
        fontFamily := g.fontFamily, anchor := g.anchor, centered := g.centered }
  | .line x1 y1 x2 y2 strokeWidth => return .line (← x1) (← y1) (← x2) (← y2) (← strokeWidth)
  | .dot x y radius => return .dot (← x) (← y) (← radius)

/-- A canvas whose measures are present. -/
def Canvas.complete? (canvas : Canvas Coordinate) : Option (Canvas Amount) :=
  return ⟨← canvas.width, ← canvas.height, ← canvas.baseline⟩

/-- A drawing all of whose coordinates are present. -/
def Drawing.complete? (drawing : Drawing Coordinate) : Option (Drawing Amount) :=
  return ⟨← drawing.canvas.complete?, ← drawing.primitives.mapM Primitive.complete?⟩

end Jianpu
