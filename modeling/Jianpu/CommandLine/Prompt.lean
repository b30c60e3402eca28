import Jianpu.Text.Blank
import Jianpu.Text.Case
import Jianpu.Text.ControlSequence
import Jianpu.Text.Lines

set_option autoImplicit false

/-!
Questions that are answered by yes or no. The answer is a line of the input; an empty one means no, and
one that is neither is asked for again. An input that ends without an answer breaks the command off.
-/
namespace Jianpu.CommandLine.Prompt

/-- Cuts a list at every line feed. -/
def cutAtFeeds : List Char → List (List Char)
  | [] => [[]]
  | c :: rest =>
    if c = '\n' then [] :: cutAtFeeds rest
    else
      match cutAtFeeds rest with
      | [] => [[c]]
      | first :: others => (c :: first) :: others

/-- The lines of an input; nothing after the last line feed is no line. -/
def linesOf (input : String) : List String :=
  let pieces := cutAtFeeds (Text.unifyLineEnds input.toList)
  let lines := if pieces.getLast? = some [] then pieces.dropLast else pieces
  lines.map String.ofList

/-- What a line answers, if it does. -/
def meaning? (line : String) : Option Bool :=
  let word := Text.lower (Text.trim line)
  if word = "y" ∨ word = "yes" then some true
  else if word = "n" ∨ word = "no" ∨ word = "" then some false
  else none

/-- The question as it is shown, without control sequences. -/
def shownQuestion (question : String) : String :=
  Text.ControlSequence.drop (question ++ " [y/N]:") ++ " "

/-- Asks a question of lines of input: what was shown, with the lines as they were typed, and the
answer. -/
def ask (question : String) : List String → String × Option Bool
  | [] => (shownQuestion question, none)
  | line :: rest =>
    let shown := shownQuestion question ++ line ++ "\n"
    match meaning? line with
    | some answer => (shown, some answer)
    | none =>
      let (more, answer) := ask question rest
      (shown ++ "Error: invalid input\n" ++ more, answer)

end Jianpu.CommandLine.Prompt
