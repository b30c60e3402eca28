set_option autoImplicit false

/-!
White space. Blanks are the controls that move the pen, the information separators, the spaces of
all widths and the line and paragraph separators; zero-width characters are not blank.
-/
namespace Jianpu.Text

/-- First and last of every run of blank characters. -/
def blankRuns : List (Nat × Nat) :=
  [(0x9, 0xD), (0x1C, 0x20), (0x85, 0x85), (0xA0, 0xA0), (0x1680, 0x1680), (0x2000, 0x200A),
   (0x2028, 0x2029), (0x202F, 0x202F), (0x205F, 0x205F), (0x3000, 0x3000)]

/-- True of white space. -/
def isBlank (c : Char) : Bool :=
  blankRuns.any fun run => run.1 ≤ c.toNat && c.toNat ≤ run.2

/-- The list without the characters of a class at its end. -/
def dropEndWhile (p : Char → Bool) (cs : List Char) : List Char :=
  (cs.reverse.dropWhile p).reverse

/-- The list without the blanks at its end. -/
def trimmedEnd (cs : List Char) : List Char :=
  dropEndWhile isBlank cs

/-- The list without the blanks at both ends. -/
def trimmed (cs : List Char) : List Char :=
  trimmedEnd (cs.dropWhile isBlank)

/-- The text without blanks at its end. -/
def trimEnd (s : String) : String :=
  String.ofList (trimmedEnd s.toList)

/-- The text without blanks at both ends. -/
def trim (s : String) : String :=
  String.ofList (trimmed s.toList)

end Jianpu.Text
