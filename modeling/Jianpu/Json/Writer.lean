import Jianpu.Json.Value
import Jianpu.Text.Quoted

set_option autoImplicit false

/-!
JSON values written on one line, with a space after every comma and colon. Only the characters that a
JSON string cannot hold are escaped, so text of any script stays readable. In the portable form lone
halves of pairs are escaped too, so that it has a form in UTF-8.
-/
namespace Jianpu.Json

open Number (Amount)

/-- A character of a string: the quote, the backslash and the controls are escaped. -/
def escapedChar (c : Char) : List Char :=
  if c = '"' then ['\\', '"']
  else if c = '\\' then ['\\', '\\']
  else if c = '\n' then ['\\', 'n']
  else if c = '\r' then ['\\', 'r']
  else if c = '\t' then ['\\', 't']
  else if c = '\x08' then ['\\', 'b']
  else if c = '\x0c' then ['\\', 'f']
  else if c.toNat < 0x20 then '\\' :: 'u' :: Text.hex 4 c.toNat
  else [c]

/-- A string with its quotes. -/
def stringChars (s : String) : List Char :=
  '"' :: s.toList.flatMap escapedChar ++ ['"']

/-- A number: whole numbers in decimal, binary64 numbers in their shortest form, and the three values
that are not finite by name. -/
def numberText : Amount → String
  | .whole n => toString n
  | .real x =>
    if x.isNaN then "NaN"
    else if x.isInf then (if x < 0 then "-Infinity" else "Infinity")
    else Number.Binary64.text x

mutual

/-- The characters of a value. -/
def chars : Json → List Char
  | .null => "null".toList
  | .bool b => (if b then "true" else "false").toList
  | .number a => (numberText a).toList
  | .string s => stringChars s
  | .array items => '[' :: itemsChars items ++ [']']
  | .object members => '\x7b' :: membersChars members ++ ['\x7d']

/-- The items of an array between its brackets. -/
def itemsChars : List Json → List Char
  | [] => []
  | [item] => chars item
  | item :: rest => chars item ++ ',' :: ' ' :: itemsChars rest

/-- The members of an object between its braces. -/
def membersChars : List (String × Json) → List Char
  | [] => []
  | [(name, value)] => stringChars name ++ ':' :: ' ' :: chars value
  | (name, value) :: rest =>
    stringChars name ++ ':' :: ' ' :: chars value ++ ',' :: ' ' :: membersChars rest

end

/-- The text of a value. -/
def text (value : Json) : String :=
  String.ofList (chars value)

/-- The plain characters of a value in portable form. -/
def portableText (value : Json) : String :=
  Text.plain (Text.portable value.text)

end Jianpu.Json
