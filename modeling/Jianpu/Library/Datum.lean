import Jianpu.Json.Reader
import Jianpu.Text.Utf8

set_option autoImplicit false

/-!
The values that pass between a store and those who ask it: numbers, texts, or nothing. A column keeps
values in a form of its own. A column of texts spells numbers out; a column of whole numbers reads the
texts that are numerals, and keeps any other text as it is.
-/
namespace Jianpu

open Number (Amount)

/-- A value of a query or of a column. -/
inductive Datum where
  | missing
  | number (amount : Amount)
  | text (words : String)

namespace Datum

instance : Coe Amount Datum := ⟨.number⟩

instance : Coe String Datum := ⟨.text⟩

/-- The bound of the whole numbers of 64 bits: two to the 63rd. -/
def wholeLimit : Int := 0x8000000000000000

/-- True of a whole number of 64 bits. -/
def fits (n : Int) : Bool :=
  -wholeLimit ≤ n && n < wholeLimit

/-! Columns of whole numbers. -/

/-- The blanks that may stand around a numeral. -/
def isMargin (c : Char) : Bool :=
  c == ' ' || (0x09 ≤ c.toNat && c.toNat ≤ 0x0D)

/-- The digits after a point and the rest; a point may stand without digits after it. -/
def placesOf (cs : List Char) : List Char × List Char :=
  match cs with
  | '.' :: rest => Json.asciiDigits rest
  | _ => ([], cs)

/-- The number that a numeral without sign spells. Digits alone are a whole number if it fits; with a
point or an exponent, or beyond that, the number is binary64. -/
def unsigned? (negative : Bool) (cs : List Char) : Option Amount :=
  let (digits, afterDigits) := Json.asciiDigits cs
  let (places, afterPlaces) := placesOf afterDigits
  let scientific (exponent : Int) : Amount :=
    let magnitude :=
      Number.Binary64.ofScientific (Json.ofAsciiDigits (digits ++ places)) (exponent - places.length)
    .real (if negative then -magnitude else magnitude)
  if digits.isEmpty && places.isEmpty then none
  else if afterDigits.isEmpty then
    let magnitude : Int := Json.ofAsciiDigits digits
    let n := if negative then -magnitude else magnitude
    some (if fits n then .whole n else scientific 0)
  else if afterPlaces.isEmpty then some (scientific 0)
  else
    match Json.exponent? afterPlaces with
    | some (exponent, []) => some (scientific exponent)
    | _ => none

/-- The number that a text spells; none of a text that is no numeral. -/
def numeral? (words : String) : Option Amount :=
  match Text.dropEndWhile isMargin (words.toList.dropWhile isMargin) with
  | '-' :: rest => unsigned? true rest
  | '+' :: rest => unsigned? false rest
  | body => unsigned? false body

/-- A binary64 number as a column of whole numbers keeps it: a whole value inside the bounds as a whole
number, and what is no number not at all. -/
def settled (x : Float) : Datum :=
  if x.isNaN then .missing
  else
    match Number.Binary64.value? x with
    | some exact =>
      if exact.den = 1 ∧ -wholeLimit < exact.num ∧ exact.num < wholeLimit - 1 then
        .number (.whole exact.num)
      else .number (.real x)
    | none => .number (.real x)

/-- A value as a column of whole numbers keeps it. -/
def counted : Datum → Datum
  | .missing => .missing
  | .number (.whole n) => .number (.whole n)
  | .number (.real x) => settled x
  | .text words =>
    match numeral? words with
    | some (.whole n) => .number (.whole n)
    | some (.real x) => settled x
    | none => .text words

/-- A binary64 number is settled once and for all. -/
theorem counted_settled (x : Float) : (settled x).counted = settled x := by
  unfold settled
  split
  · rfl
  · rename_i isNumber
    split
    · rename_i exact isExact
      split
      · rfl
      · rename_i isKept
        simp only [counted, settled, isNumber, isExact, isKept, if_false, Bool.false_eq_true]
    · rename_i isInfinite
      simp only [counted, settled, isNumber, isInfinite, if_false, Bool.false_eq_true]

/-- A column of whole numbers gives back what it keeps: kept again, nothing changes. -/
theorem counted_counted (datum : Datum) : datum.counted.counted = datum.counted := by
  cases datum with
  | missing => rfl
  | number amount =>
    cases amount with
    | whole n => rfl
    | real x => exact counted_settled x
  | text words =>
    cases read : numeral? words with
    | none => simp only [counted, read]
    | some amount =>
      cases amount with
      | whole n => simp only [counted, read]
      | real x =>
        have kept : (Datum.text words).counted = settled x := by simp only [counted, read]
        rw [kept, counted_settled]

/-- The whole number that a value comes to. -/
def whole? (datum : Datum) : Option Int :=
  match datum.counted with
  | .number (.whole n) => some n
  | _ => none

/-! Columns of texts. -/

/-- A binary64 number spelled out; what is no number is not. -/
def spelled? (x : Float) : Option String :=
  if x.isNaN then none
  else if x.isInf then some (if x < 0 then "-Inf" else "Inf")
  else if x == 0 then some "0.0"
  else some (Number.Binary64.pointedText x)

/-- A value as a column of texts keeps it. -/
def words? : Datum → Option String
  | .missing => none
  | .number (.whole n) => some (toString n)
  | .number (.real x) => spelled? x
  | .text words => some words

/-! Datums in JSON. -/

/-- A value as JSON. -/
def json : Datum → Json
  | .missing => .null
  | .number amount => .number amount
  | .text words => .string words

/-- A value from JSON; truth values are one and zero, and nothing stands for arrays and objects. -/
def ofJson : Json → Datum
  | .number amount => .number amount
  | .bool b => .number (.whole (if b then 1 else 0))
  | .string words => .text words
  | .null | .array _ | .object _ => .missing

end Datum

end Jianpu
