import Jianpu.Number.Binary64

set_option autoImplicit false

/-!
Decimal numerals. A numeral is a coefficient and a power of ten; it arises either as the shortest one
that reads back as a given binary64 number or by rounding to a count of significant digits, and a
`Layout` says where positional notation ends.
-/
namespace Jianpu.Number

/-- The number `coefficient · 10 ^ exponent`. -/
structure Decimal where
  coefficient : Nat
  exponent : Int
  deriving Repr, DecidableEq

namespace Decimal

/-- The exact value. -/
def value (d : Decimal) : Rat :=
  (d.coefficient : Rat) * (10 : Rat) ^ d.exponent

/-- Drops trailing zeros of the coefficient, at most `fuel` of them. -/
def stripZeros : (fuel coefficient : Nat) → (exponent : Int) → Decimal
  | 0, coefficient, exponent => ⟨coefficient, exponent⟩
  | fuel + 1, coefficient, exponent =>
    if coefficient ≠ 0 ∧ coefficient % 10 = 0 then stripZeros fuel (coefficient / 10) (exponent + 1)
    else ⟨coefficient, exponent⟩

/-- The same value without trailing zeros in the coefficient. -/
def normalized (d : Decimal) : Decimal :=
  if d.coefficient = 0 then ⟨0, 0⟩
  else stripZeros d.coefficient.log2 d.coefficient d.exponent

/-- A positive value rounded to `count` significant digits, ties to the even digit. -/
def significant (count : Nat) (magnitude : Rat) : Decimal :=
  let unit := decimalOrder magnitude - count + 1
  normalized ⟨(nearestEven (magnitude / (10 : Rat) ^ unit)).toNat, unit⟩

/-- The numeral of `count` digits that reads back as the positive number `x` of exact value
`magnitude`, the nearer one if both neighbours do and the even one at equal distance. -/
def readingBack? (x : Float) (magnitude : Rat) (count : Nat) : Option Decimal :=
  let unit := decimalOrder magnitude - count + 1
  let scaled := magnitude / (10 : Rat) ^ unit
  let below := scaled.floor.toNat
  let readsBack (coefficient : Nat) : Bool :=
    match Binary64.nearest? ((coefficient : Rat) * (10 : Rat) ^ unit) with
    | some y => y.toBits == x.toBits
    | none => false
  let nearer := (nearestEven scaled).toNat
  let other := if nearer = below then below + 1 else below
  if readsBack nearer then some ⟨nearer, unit⟩
  else if readsBack other then some ⟨other, unit⟩
  else none

/-- The numeral with the fewest digits that reads back as the positive number `x`. Seventeen digits
always suffice. -/
def shortest (x : Float) (magnitude : Rat) : Decimal :=
  ((List.range 17).findSome? fun count => readingBack? x magnitude (count + 1)).getD
    (significant 17 magnitude) |>.normalized

/-- Where positional notation is used and how a whole value ends. -/
structure Layout where
  /-- Least power of ten of the first digit that is written positionally. -/
  leastOrder : Int
  /-- First power of ten of the first digit that is written with an exponent. -/
  exponentFrom : Int
  /-- Whether a whole value keeps a point and a zero. -/
  keepsPoint : Bool
  /-- Whether a single digit before an exponent keeps them as well. -/
  pointsMantissa : Bool := false

/-- The text of a nonnegative numeral without trailing zeros. An exponent has a sign and at least two
digits. -/
def text (layout : Layout) (d : Decimal) : String :=
  let digits := (toString d.coefficient).toList
  let order : Int := if d.coefficient = 0 then 0 else d.exponent + digits.length - 1
  if layout.leastOrder ≤ order ∧ order < layout.exponentFrom then
    if order < 0 then
      "0." ++ String.ofList (List.replicate (-order - 1).toNat '0' ++ digits)
    else
      let head := (order + 1).toNat
      let whole := digits.take head ++ List.replicate (head - digits.length) '0'
      let fraction := digits.drop head
      if fraction.isEmpty then String.ofList whole ++ (if layout.keepsPoint then ".0" else "")
      else String.ofList (whole ++ '.' :: fraction)
  else
    let lead := digits.take 1
    let rest := digits.drop 1
    let mantissa :=
      if !rest.isEmpty then lead ++ '.' :: rest
      else if layout.pointsMantissa then lead ++ ['.', '0']
      else lead
    let power := toString order.natAbs
    String.ofList mantissa ++ "e" ++ (if order < 0 then "-" else "+")
      ++ (if power.length < 2 then "0" ++ power else power)

end Decimal

namespace Binary64

/-- A number in the given layout from its numeral; the numeral is asked for its magnitude only. -/
def textWith (layout : Decimal.Layout) (numeral : Rat → Decimal) (x : Float) : String :=
  match value? x with
  | none =>
    if x.isNaN then "nan" else if x < 0 then "-inf" else "inf"
  | some exact =>
    let magnitude := if exact < 0 then -exact else exact
    let digits := if magnitude = 0 then ⟨0, 0⟩ else numeral magnitude
    (if signBit x then "-" else "") ++ digits.text layout

/-- The shortest text that reads back: positional from `1e-4` up to `1e16`, whole values with `.0`. -/
def text (x : Float) : String :=
  textWith { leastOrder := -4, exponentFrom := 16, keepsPoint := true } (Decimal.shortest x.abs) x

/-- The text with six significant digits, positional from `1e-4` up to `1e6`, whole values bare. -/
def briefText (x : Float) : String :=
  textWith { leastOrder := -4, exponentFrom := 6, keepsPoint := false } (Decimal.significant 6) x

/-- The text with fifteen significant digits, positional from `1e-4` up to `1e15`, always with a
point. -/
def pointedText (x : Float) : String :=
  textWith { leastOrder := -4, exponentFrom := 15, keepsPoint := true, pointsMantissa := true }
    (Decimal.significant 15) x

end Binary64

end Jianpu.Number
