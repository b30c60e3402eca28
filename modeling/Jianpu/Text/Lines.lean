import Jianpu.Text.Blank

set_option autoImplicit false

/-!
Lines and paragraphs. A text file may end its lines in any of three ways; they are all read as a line
feed. A paragraph ends where a line feed is followed by blanks and another line feed.
-/
namespace Jianpu.Text

/-- Every line end, a carriage return with or without a line feed after it, as one line feed. -/
def unifyLineEnds : List Char → List Char
  | [] => []
  | '\r' :: '\n' :: rest => '\n' :: unifyLineEnds rest
  | c :: rest => (if c = '\r' then '\n' else c) :: unifyLineEnds rest

/-- Every carriage return and line feed in a row as the line feed alone. -/
def joinLineEnds : List Char → List Char
  | [] => []
  | '\r' :: '\n' :: rest => '\n' :: joinLineEnds rest
  | c :: rest => c :: joinLineEnds rest

/-- The characters after the last line feed of the blanks that a list starts with, when there is one
among them. -/
def afterLastBlankLine? : List Char → Option (List Char)
  | [] => none
  | c :: rest =>
    if isBlank c then
      match afterLastBlankLine? rest with
      | some remainder => some remainder
      | none => if c = '\n' then some rest else none
    else none

/-- The rest of a text after a paragraph break, when the text starts with one: a line feed, blanks, and
the last line feed that only blanks precede. -/
def afterBreak? : List Char → Option (List Char)
  | '\n' :: rest => afterLastBlankLine? rest
  | _ => none

/-- Cuts a text at every paragraph break; `fuel` bounds the characters looked at. -/
def cutAtBreaks : (fuel : Nat) → List Char → List (List Char)
  | 0, rest => [rest]
  | _ + 1, [] => [[]]
  | fuel + 1, c :: rest =>
    match afterBreak? (c :: rest) with
    | some remainder => [] :: cutAtBreaks fuel remainder
    | none =>
      match cutAtBreaks fuel rest with
      | [] => [[c]]
      | first :: others => (c :: first) :: others

/-- The paragraphs of a text, each without the blanks around it and none of them empty. -/
def paragraphs (text : List Char) : List (List Char) :=
  let body := trimmed text
  ((cutAtBreaks body.length body).map trimmed).filter fun chunk => !chunk.isEmpty

end Jianpu.Text
