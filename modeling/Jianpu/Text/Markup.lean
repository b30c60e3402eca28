set_option autoImplicit false

/-!
Text inside markup. The three characters that markup gives a meaning are written as entities, and
inside an attribute the double quote is one too.
-/
namespace Jianpu.Text.Markup

/-- The entity of a character of text content, or the character itself. -/
def escapeChar : Char → List Char
  | '&' => "&amp;".toList
  | '<' => "&lt;".toList
  | '>' => "&gt;".toList
  | c => [c]

/-- The entity of a character of an attribute value, or the character itself. -/
def escapeAttributeChar (c : Char) : List Char :=
  if c = '"' then "&quot;".toList else escapeChar c

/-- Text content with entities. -/
def escape (s : String) : String :=
  String.ofList (s.toList.flatMap escapeChar)

/-- An attribute value with entities. -/
def escapeAttribute (s : String) : String :=
  String.ofList (s.toList.flatMap escapeAttributeChar)

end Jianpu.Text.Markup
