import Jianpu.Json.Value
import Jianpu.Text.Numeral
import Jianpu.Text.Utf8

set_option autoImplicit false

/-!
JSON texts read as values. White space is the space, the tab and the two line ends; a string holds no
raw control character; `NaN` and the infinities are read by name, and a whole number of too many
digits is refused. Of members with one name all are kept, and the last counts.
-/
namespace Jianpu.Json

open Number (Amount)

/-- White space between the parts of a JSON text. -/
def isSpace (c : Char) : Bool :=
  c == ' ' || c == '\t' || c == '\n' || c == '\r'

/-- The rest of a text after white space. -/
def skipSpace (cs : List Char) : List Char :=
  cs.dropWhile isSpace

/-- The rest of a text after a given start. -/
def after? : (start cs : List Char) → Option (List Char)
  | [], cs => some cs
  | s :: start, c :: cs => if s = c then after? start cs else none
  | _ :: _, [] => none

/-- The value of a hexadecimal digit. -/
def hexValue? (c : Char) : Option Nat :=
  if '0' ≤ c ∧ c ≤ '9' then some (c.toNat - 48)
  else if 'a' ≤ c ∧ c ≤ 'f' then some (c.toNat - 87)
  else if 'A' ≤ c ∧ c ≤ 'F' then some (c.toNat - 55)
  else none

/-- A code unit of four hexadecimal digits at the start of a text. -/
def codeUnit? : List Char → Option (Nat × List Char)
  | a :: b :: c :: d :: rest => do
    let high := 16 * (← hexValue? a) + (← hexValue? b)
    let low := 16 * (← hexValue? c) + (← hexValue? d)
    return (256 * high + low, rest)
  | _ => none

/-- The code point of a code unit and the rest after it. The first half of a pair takes the second half
along. -/
def unitPoint (unit : Nat) (rest : List Char) : Text.CodePoint × List Char :=
  let alone := (Text.CodePoint.ofNumber unit, rest)
  if unit < 0xD800 ∨ 0xDBFF < unit then alone
  else
    match rest with
    | '\\' :: 'u' :: more =>
      match codeUnit? more with
      | some (low, remainder) =>
        if 0xDC00 ≤ low ∧ low ≤ 0xDFFF then
          (.ofNumber (0x10000 + (unit - 0xD800) * 0x400 + (low - 0xDC00)), remainder)
        else alone
      | none => alone
    | _ => alone

/-- The character of a one-letter escape. -/
def shortEscape? : Char → Option Char
  | '"' => some '"'
  | '\\' => some '\\'
  | '/' => some '/'
  | 'b' => some '\x08'
  | 'f' => some '\x0c'
  | 'n' => some '\n'
  | 'r' => some '\r'
  | 't' => some '\t'
  | _ => none

/-- The characters of a string up to its closing quote, and the rest after it. -/
def stringBody? : (fuel : Nat) → List Char → Option (List Char × List Char)
  | 0, _ => none
  | _ + 1, [] => none
  | fuel + 1, c :: rest =>
    if c = '"' then some ([], rest)
    else if c.toNat < 0x20 then none
    else if c = '\\' then
      match rest with
      | 'u' :: more => do
        let (unit, remainder) ← codeUnit? more
        let (point, remainder) := unitPoint unit remainder
        let (body, remainder) ← stringBody? fuel remainder
        return (point.spelling ++ body, remainder)
      | e :: more => do
        let character ← shortEscape? e
        let (body, remainder) ← stringBody? fuel more
        return (character :: body, remainder)
      | [] => none
    else do
      let (body, remainder) ← stringBody? fuel rest
      return (c :: body, remainder)

/-- Splits off the ASCII digits that a text starts with. -/
def asciiDigits (cs : List Char) : List Char × List Char :=
  (cs.takeWhile Char.isDigit, cs.dropWhile Char.isDigit)

/-- The number that ASCII digits spell. -/
def ofAsciiDigits (digits : List Char) : Nat :=
  digits.foldl (fun total c => 10 * total + (c.toNat - 48)) 0

/-- The digits after a point and the rest; no digits when the text does not go on with a fraction. -/
def fraction (cs : List Char) : List Char × List Char :=
  match cs with
  | '.' :: rest =>
    let (digits, remainder) := asciiDigits rest
    if digits.isEmpty then ([], cs) else (digits, remainder)
  | _ => ([], cs)

/-- An exponent and the rest; nothing when the text does not go on with one. -/
def exponent? (cs : List Char) : Option (Int × List Char) :=
  match cs with
  | e :: rest =>
    if e = 'e' ∨ e = 'E' then
      let (negative, unsigned) :=
        match rest with
        | '-' :: more => (true, more)
        | '+' :: more => (false, more)
        | _ => (false, rest)
      let (digits, remainder) := asciiDigits unsigned
      if digits.isEmpty then none
      else
        let magnitude : Int := ofAsciiDigits digits
        some (if negative then -magnitude else magnitude, remainder)
    else none
  | [] => none

/-- A number without its sign. The whole part has no needless zero in front; a number with a fraction
or an exponent is binary64. -/
def unsignedNumber? (negative : Bool) (cs : List Char) : Option (Amount × List Char) :=
  let (allDigits, afterAll) := asciiDigits cs
  let (digits, rest) :=
    match allDigits with
    | '0' :: more => (['0'], more ++ afterAll)
    | _ => (allDigits, afterAll)
  if digits.isEmpty then none
  else
    let (places, afterFraction) := fraction rest
    match exponent? afterFraction with
    | none =>
      if places.isEmpty then
        if Text.maxNumeralDigits < digits.length then none
        else
          let magnitude : Int := ofAsciiDigits digits
          some (.whole (if negative then -magnitude else magnitude), rest)
      else
        let magnitude :=
          Number.Binary64.ofScientific (ofAsciiDigits (digits ++ places)) (-(places.length : Int))
        some (.real (if negative then -magnitude else magnitude), afterFraction)
    | some (exponent, remainder) =>
      let magnitude :=
        Number.Binary64.ofScientific (ofAsciiDigits (digits ++ places))
          (exponent - (places.length : Int))
      some (.real (if negative then -magnitude else magnitude), remainder)

/-- A number, or the name of one that is not finite. -/
def number? : List Char → Option (Amount × List Char)
  | '-' :: rest =>
    match after? "Infinity".toList rest with
    | some remainder => some (.real (-Number.Binary64.infinity), remainder)
    | none => unsignedNumber? true rest
  | cs =>
    match after? "Infinity".toList cs with
    | some remainder => some (.real Number.Binary64.infinity, remainder)
    | none =>
      match after? "NaN".toList cs with
      | some remainder => some (.real (0 / 0), remainder)
      | none => unsignedNumber? false cs

mutual

/-- A value at the start of a text, and the rest after it. -/
def value? : (fuel : Nat) → List Char → Option (Json × List Char)
  | 0, _ => none
  | fuel + 1, cs =>
    match cs with
    | [] => none
    | c :: rest =>
      if c = '"' then do
        let (body, remainder) ← stringBody? fuel rest
        return (.string (String.ofList body), remainder)
      else if c = '[' then
        match skipSpace rest with
        | ']' :: remainder => some (.array [], remainder)
        | start => do
          let (items, remainder) ← itemsFrom? fuel start
          return (.array items, remainder)
      else if c = '\x7b' then
        match skipSpace rest with
        | '\x7d' :: remainder => some (.object [], remainder)
        | start => do
          let (members, remainder) ← membersFrom? fuel start
          return (.object members, remainder)
      else if c = 'n' then (after? "null".toList cs).map fun remainder => (.null, remainder)
      else if c = 't' then (after? "true".toList cs).map fun remainder => (.bool true, remainder)
      else if c = 'f' then (after? "false".toList cs).map fun remainder => (.bool false, remainder)
      else (number? cs).map fun (amount, remainder) => (.number amount, remainder)

/-- The items of an array from its first one to its closing bracket. -/
def itemsFrom? : (fuel : Nat) → List Char → Option (List Json × List Char)
  | 0, _ => none
  | fuel + 1, cs => do
    let (item, afterItem) ← value? fuel cs
    match skipSpace afterItem with
    | ']' :: remainder => return ([item], remainder)
    | ',' :: more =>
      let (items, remainder) ← itemsFrom? fuel (skipSpace more)
      return (item :: items, remainder)
    | _ => none

/-- The members of an object from the quote of its first name to its closing brace. -/
def membersFrom? : (fuel : Nat) → List Char → Option (List (String × Json) × List Char)
  | 0, _ => none
  | fuel + 1, cs => do
    match cs with
    | '"' :: afterQuote =>
      let (name, afterName) ← stringBody? fuel afterQuote
      match skipSpace afterName with
      | ':' :: afterColon =>
        let (value, afterValue) ← value? fuel (skipSpace afterColon)
        let member := (String.ofList name, value)
        match skipSpace afterValue with
        | '\x7d' :: remainder => return ([member], remainder)
        | ',' :: more =>
          let (members, remainder) ← membersFrom? fuel (skipSpace more)
          return (member :: members, remainder)
        | _ => none
      | _ => none
    | _ => none

end

/-- The value that a whole text spells. Every step of the reader consumes a character or enters a part
of the text, so twice the length is fuel enough. -/
def parse? (s : String) : Option Json := do
  let cs := s.toList
  let (value, rest) ← value? (2 * cs.length + 2) (skipSpace cs)
  if (skipSpace rest).isEmpty then some value else none

/-- Reads the octets of a text in UTF-8. -/
def ofOctets? (octets : List UInt8) : Option Json :=
  match Text.Utf8.decode octets with
  | .ok characters => parse? (String.ofList characters)
  | .error _ => none

end Jianpu.Json
