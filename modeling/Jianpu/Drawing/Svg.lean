import Jianpu.Drawing
import Jianpu.Text.Markup

set_option autoImplicit false

/-!
Drawings as SVG documents. A coordinate is written with at most two decimal places and no needless
zero, so that equal drawings have equal text.
-/
namespace Jianpu.Svg

open Number (Amount Fault nearestEven Binary64.value? Binary64.ofInt?)

/-- The digits of a count of hundredths without zeros at the end, and no point without digits. -/
def hundredthsText (hundredths : Nat) : String :=
  let whole := toString (hundredths / 100)
  let rest := hundredths % 100
  if rest = 0 then whole
  else if rest % 10 = 0 then whole ++ "." ++ toString (rest / 10)
  else whole ++ "." ++ (if rest < 10 then "0" else "") ++ toString rest

/-- The text of an exact coordinate: a whole number as it is, any other number rounded to hundredths
with ties to the even one. The sign stays even where all digits round to zero. -/
def coordinateText (value : Rat) : String :=
  if value.den = 1 then toString value.num
  else
    let magnitude := if value < 0 then -value else value
    (if value < 0 then "-" else "") ++ hundredthsText (nearestEven (magnitude * 100)).toNat

/-- The text of a coordinate. A whole number has to fit binary64; numbers that are not finite are
written by name. -/
def amountText : Amount → Except Fault String
  | .whole n =>
    match Binary64.ofInt? n with
    | some _ => .ok (coordinateText n)
    | none => .error .tooLarge
  | .real x =>
    match Binary64.value? x with
    | some value => .ok (coordinateText value)
    | none => .ok (if x.isNaN then "nan" else if x < 0 then "-inf" else "inf")

/-- An attribute with a space in front. -/
def attr (name value : String) : String :=
  " " ++ name ++ "=\"" ++ value ++ "\""

/-- The colour everything is painted in. -/
def ink : String := "#000000"

/-- The element of a primitive. -/
def element : Primitive Amount → Except Fault String
  | .glyph g => do
    let x ← amountText g.x
    let y ← amountText g.y
    return "<text" ++ attr "x" x ++ attr "y" y
      ++ (if g.centered then attr "dy" "0.35em" else "")
      ++ attr "text-anchor" g.anchor ++ attr "fill" ink
      ++ attr "font-weight" g.fontWeight
      ++ attr "font-family" (Text.Markup.escapeAttribute g.fontFamily)
      ++ attr "font-size" g.fontSize.text ++ ">" ++ Text.Markup.escape g.text ++ "</text>"
  | .line x1 y1 x2 y2 strokeWidth => do
    let x1 ← amountText x1
    let y1 ← amountText y1
    let x2 ← amountText x2
    let y2 ← amountText y2
    let strokeWidth ← amountText strokeWidth
    return "<line" ++ attr "x1" x1 ++ attr "y1" y1 ++ attr "x2" x2
      ++ attr "y2" y2 ++ attr "stroke" ink ++ attr "stroke-width" strokeWidth
      ++ " />"
  | .dot x y radius => do
    let x ← amountText x
    let y ← amountText y
    let radius ← amountText radius
    return "<circle" ++ attr "cx" x ++ attr "cy" y ++ attr "r" radius
      ++ attr "fill" ink ++ " />"

/-- The document of a drawing: a white rectangle, then one element per primitive, each on its own
line. -/
def render (drawing : Drawing Amount) : Except Fault String := do
  let elements ← drawing.primitives.mapM element
  let width ← amountText drawing.canvas.width
  let height ← amountText drawing.canvas.height
  return "<svg" ++ attr "xmlns" "http://www.w3.org/2000/svg" ++ attr "width" width
    ++ attr "height" height ++ attr "viewBox" ("0 0 " ++ width ++ " " ++ height) ++ ">"
    ++ "\n  <rect" ++ attr "width" "100%" ++ attr "height" "100%"
    ++ attr "fill" "#ffffff" ++ " />"
    ++ String.join (elements.map fun text => "\n  " ++ text) ++ "\n</svg>"

end Jianpu.Svg
