set_option autoImplicit false

/-!
Letters without regard to case. Names that are matched here are ASCII, and no letter outside ASCII has
one of their letters as its lower form; the looser folding, which also takes ligatures apart, is kept
separate.
-/
namespace Jianpu.Text

/-- The text with its ASCII capitals made small. -/
def lower (s : String) : String :=
  String.ofList (s.toList.map Char.toLower)

/-- The small letters that a character stands for when case and ligatures are disregarded, as far as
ASCII letters come of it. -/
def folded (c : Char) : List Char :=
  match c.toNat with
  | 0xDF | 0x1E9E => ['s', 's']
  | 0x17F => ['s']
  | 0x212A => ['k']
  | 0xFB00 => ['f', 'f']
  | 0xFB01 => ['f', 'i']
  | 0xFB02 => ['f', 'l']
  | 0xFB03 => ['f', 'f', 'i']
  | 0xFB04 => ['f', 'f', 'l']
  | 0xFB05 | 0xFB06 => ['s', 't']
  | _ => [c.toLower]

/-- The text with case and ligatures disregarded. -/
def fold (s : String) : String :=
  String.ofList (s.toList.flatMap folded)

end Jianpu.Text
