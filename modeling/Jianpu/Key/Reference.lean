import Jianpu.Key
import Jianpu.Text.Case
import Jianpu.Text.Numeral
import Jianpu.Text.Quoted

set_option autoImplicit false

/-!
References to keys, as a person types them: a catalog index, the name of a key, the root of a major
key, or a word for the key of bare numbers. Case and the blanks around do not matter.
-/
namespace Jianpu.Key

/-- Why a reference names no key. -/
inductive ReferenceError where
  /-- A numeral outside the catalog. -/
  | outOfCatalog (fault : OutOfCatalog)
  /-- Digits that are no numeral. -/
  | notANumeral (text : String) (fault : Text.NumeralFault)
  /-- No key has this name. -/
  | unknown (reference : String)

/-- The most characters of a quoted text that a message about a numeral shows. -/
def longestShown : Nat := 200

/-- The wording of a reference error. -/
def ReferenceError.message : ReferenceError → String
  | .outOfCatalog fault => fault.message
  | .notANumeral text .malformed =>
    "invalid literal for int() with base 10: "
      ++ String.ofList ((Text.quoted text).toList.take longestShown)
  | .notANumeral _ (.tooLong digits) =>
    "Exceeds the limit (" ++ toString Text.maxNumeralDigits
      ++ " digits) for integer string conversion: value has " ++ toString digits
      ++ " digits; use sys.set_int_max_str_digits() to increase the limit"
  | .unknown reference =>
    "Unknown key '" ++ reference ++ "'. Use an index 0–" ++ toString (catalog.length - 1)
      ++ " or one of: " ++ ", ".intercalate (catalog.map (·.name)) ++ "."

/-- True of a text that is meant as a number: digits, of any kind, after hyphens. -/
def looksNumeric (cs : List Char) : Bool :=
  let digits := cs.dropWhile (· == '-')
  !digits.isEmpty && digits.all Text.isDigit

/-- The words for the key of bare numbers. -/
def numbersWords : List String :=
  ["numbers", "numbers only", "numbers-only"]

/-- The catalog index that a reference names. -/
def find (reference : String) : Except ReferenceError Int :=
  let text := Text.trim reference
  if looksNumeric text.toList then
    match Text.readInt text.toList with
    | .error fault => .error (.notANumeral text fault)
    | .ok index =>
      match resolve index with
      | .ok _ => .ok index
      | .error fault => .error (.outOfCatalog fault)
  else
    let wanted := Text.lower text
    if numbersWords.contains wanted then .ok numbersOnlyIndex
    else
      let byName := catalog.findIdx? fun key => Text.lower key.name == wanted
      let byRoot := (catalog.take numbersOnlyIndex).findIdx? fun key => Text.lower key.root == wanted
      match byName.or byRoot with
      | some index => .ok index
      | none => .error (.unknown reference)

end Jianpu.Key
