import Jianpu.Text.CodePoint
import Jianpu.Text.Printable

set_option autoImplicit false

/-!
A text quoted for a message. Single quotes go around it, double quotes if it has a single quote and no
double one. The quote itself, the backslash and characters without a visible form are escaped, and so
are lone halves of pairs.
-/
namespace Jianpu.Text

/-- A number in hexadecimal with at least `width` digits. -/
def hex (width n : Nat) : List Char :=
  let digits := Nat.toDigits 16 n
  List.replicate (width - digits.length) '0' ++ digits

/-- A code point inside the given quotes. -/
def quotedPoint (quote : Char) : CodePoint → List Char
  | .half index => '\\' :: 'u' :: hex 4 (CodePoint.half index).number
  | .char c =>
    if c = quote || c = '\\' then ['\\', c]
    else if c = '\n' then ['\\', 'n']
    else if c = '\r' then ['\\', 'r']
    else if c = '\t' then ['\\', 't']
    else if isPrintable c then [c]
    else if c.toNat < 0x100 then '\\' :: 'x' :: hex 2 c.toNat
    else if c.toNat < 0x10000 then '\\' :: 'u' :: hex 4 c.toNat
    else '\\' :: 'U' :: hex 8 c.toNat

/-- The quoted text. -/
def quoted (s : String) : String :=
  let points := codePoints s
  let quote := if points.contains (.char '\'') && !points.contains (.char '"') then '"' else '\''
  String.ofList (quote :: points.flatMap (quotedPoint quote) ++ [quote])

/-- The text in portable form, which always has octets: a lone half is an escape. -/
def portable (s : String) : String :=
  ofCodePoints ((codePoints s).flatMap fun
    | .half index => ('\\' :: 'u' :: hex 4 (CodePoint.half index).number).map .char
    | point => [point])

end Jianpu.Text
