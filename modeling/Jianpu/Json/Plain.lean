import Jianpu.Json.Value
import Jianpu.Text.Quoted

set_option autoImplicit false

/-!
JSON values in plain words, as they are kept where a text was expected. A string says what it says; in
arrays and objects it is quoted as in messages. Truth values and the missing value have names with a
capital, numbers that are not finite short ones.
-/
namespace Jianpu.Json

open Number (Amount)

/-- A number in plain words. -/
def plainNumber : Amount → String
  | .whole n => toString n
  | .real x =>
    if x.isNaN then "nan"
    else if x.isInf then (if x < 0 then "-inf" else "inf")
    else Number.Binary64.text x

/-- The members of an object, each name once: where it stands first, with the value that counts. -/
def counted : (seen : List String) → List (String × String) → List (String × String)
  | _, [] => []
  | seen, (name, value) :: rest =>
    if seen.contains name then counted seen rest
    else
      let last := (rest.reverse.find? fun member => member.1 == name).map (·.2)
      (name, last.getD value) :: counted (name :: seen) rest

mutual

/-- A value inside an array or an object. -/
def plainInside : Json → String
  | .null => "None"
  | .bool b => if b then "True" else "False"
  | .number amount => plainNumber amount
  | .string s => Text.quoted s
  | .array items => "[" ++ ", ".intercalate (plainItems items) ++ "]"
  | .object members =>
    let pairs := (counted [] (plainMembers members)).map fun member =>
      Text.quoted member.1 ++ ": " ++ member.2
    "\x7b" ++ ", ".intercalate pairs ++ "\x7d"

/-- The items of an array. -/
def plainItems : List Json → List String
  | [] => []
  | item :: rest => plainInside item :: plainItems rest

/-- The members of an object, each with its value in plain words. -/
def plainMembers : List (String × Json) → List (String × String)
  | [] => []
  | (name, value) :: rest => (name, plainInside value) :: plainMembers rest

end

/-- A value in plain words. -/
def plainText : Json → String
  | .string s => s
  | other => plainInside other

end Jianpu.Json
