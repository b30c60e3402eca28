import Jianpu.Number.Amount
import Jianpu.Number.Whole

set_option autoImplicit false

/-!
JSON values. Numbers keep their kind: one spelled without point and exponent is whole, any other is
binary64. An object keeps its members in the order they were written; where a name occurs twice, the
last member counts.
-/
namespace Jianpu

open Number (Amount Whole)

/-- A JSON value. -/
inductive Json where
  | null
  | bool (b : Bool)
  | number (a : Amount)
  | string (s : String)
  | array (items : List Json)
  | object (members : List (String × Json))

namespace Json

instance : Inhabited Json := ⟨.null⟩

/-- A whole number. -/
def int (n : Int) : Json := .number (.whole n)

/-- A binary64 number. -/
def real (x : Float) : Json := .number (.real x)

/-- The member of an object with a name, the last one of several; `none` also for other values. -/
def get? (name : String) : Json → Option Json
  | .object members => (members.reverse.find? fun m => m.1 == name).map (·.2)
  | _ => none

/-- The items of an array. -/
def items? : Json → Option (List Json)
  | .array items => some items
  | _ => none

/-- The text of a string. -/
def string? : Json → Option String
  | .string s => some s
  | _ => none

/-- A number of either kind. A truth value is no number. -/
def amount? : Json → Option Amount
  | .number a => some a
  | _ => none

/-- A whole number. A truth value is no number. -/
def int? : Json → Option Int
  | .number (.whole n) => some n
  | _ => none

/-- A whole number, or a truth value in place of one. -/
def whole? : Json → Option Whole
  | .number (.whole n) => some (.number n)
  | .bool b => some (.truth b)
  | _ => none

/-- A truth value. -/
def bool? : Json → Option Bool
  | .bool b => some b
  | _ => none

/-- True of objects. -/
def isObject : Json → Bool
  | .object _ => true
  | _ => false

end Json

end Jianpu
