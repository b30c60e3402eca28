import Jianpu.Text.Blank
import Jianpu.Text.Digit

set_option autoImplicit false

/-!
Whole numbers as people write them: blanks around, an optional sign, and decimal digits of any script
with single underscores between them. The information separators are no blanks here. A numeral of more
than 4300 digits is refused for its length.
-/
namespace Jianpu.Text

/-- Why a text is no whole number. -/
inductive NumeralFault where
  /-- The text is not of the form of a whole number. -/
  | malformed
  /-- The text has this many digits, more than are read. -/
  | tooLong (digits : Nat)
  deriving Repr, DecidableEq

/-- The most digits a numeral may have. -/
def maxNumeralDigits : Nat := 4300

/-- True when a text starts with a decimal digit. -/
def startsWithDigit : List Char → Bool
  | [] => false
  | c :: _ => (decimalValue? c).isSome

/-- Splits off the longest run of decimal digits as their values. An underscore is passed over between
two digits. -/
def digitRun : (afterDigit : Bool) → List Char → List Nat × List Char
  | _, [] => ([], [])
  | afterDigit, c :: rest =>
    if c = '_' ∧ afterDigit ∧ startsWithDigit rest then digitRun false rest
    else
      match decimalValue? c with
      | none => ([], c :: rest)
      | some value =>
        let (values, remainder) := digitRun true rest
        (value :: values, remainder)

/-- The number that a list of digit values spells, most significant first. -/
def ofDigitValues (values : List Nat) : Nat :=
  values.foldl (fun total value => 10 * total + value) 0

/-- True of the blanks that may stand around a numeral: all but the information separators. -/
def isMargin (c : Char) : Bool :=
  isBlank c && !(0x1C ≤ c.toNat && c.toNat ≤ 0x1F)

/-- Reads a whole number. The digits are counted before what follows them is looked at. -/
def readInt (cs : List Char) : Except NumeralFault Int :=
  let body := dropEndWhile isMargin (cs.dropWhile isMargin)
  let (negative, unsigned) :=
    match body with
    | '-' :: rest => (true, rest)
    | '+' :: rest => (false, rest)
    | _ => (false, body)
  let (values, remainder) := digitRun false unsigned
  if maxNumeralDigits < values.length then .error (.tooLong values.length)
  else if values.isEmpty || !remainder.isEmpty then .error .malformed
  else
    let magnitude := ofDigitValues values
    .ok (if negative then -(magnitude : Int) else magnitude)

end Jianpu.Text
