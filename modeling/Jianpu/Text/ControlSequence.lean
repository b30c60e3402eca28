set_option autoImplicit false

/-!
Control sequences of terminals. A sequence starts with the escape character and a bracket; parameters
may follow, intermediate characters after them, and one final character ends it. Text that is not shown
on a terminal is shown without them.
-/
namespace Jianpu.Text.ControlSequence

/-- True of the characters of parameters: the digits, the colon and what lies between it and the at
sign. -/
def isParameter (c : Char) : Bool :=
  '0' ≤ c && c ≤ '?'

/-- True of the characters between parameters and the final character: the space and the punctuation
before the digits. -/
def isIntermediate (c : Char) : Bool :=
  ' ' ≤ c && c ≤ '/'

/-- True of the characters that end a sequence: the letters and the punctuation around them. -/
def isFinal (c : Char) : Bool :=
  '@' ≤ c && c ≤ '~'

/-- The rest of a text after the control sequence that it starts with. -/
def after? : List Char → Option (List Char)
  | '\x1b' :: '[' :: rest =>
    match (rest.dropWhile isParameter).dropWhile isIntermediate with
    | [] => none
    | final :: remainder => if isFinal final then some remainder else none
  | _ => none

/-- Leaves the control sequences out of a text; `fuel` bounds the characters looked at. -/
def dropFrom : (fuel : Nat) → List Char → List Char
  | 0, cs => cs
  | _ + 1, [] => []
  | fuel + 1, c :: rest =>
    match after? (c :: rest) with
    | some remainder => dropFrom fuel remainder
    | none => c :: dropFrom fuel rest

/-- The text without control sequences. What is left may read as a new one and stays. -/
def drop (text : String) : String :=
  String.ofList (dropFrom text.length text.toList)

end Jianpu.Text.ControlSequence
