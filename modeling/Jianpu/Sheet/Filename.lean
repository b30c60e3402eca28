import Jianpu.Text.Blank

set_option autoImplicit false

/-!
Names of section files. A name is built from title and album with everything but ASCII letters,
digits, hyphens and underscores taken out and every run of blanks made one underscore.
-/
namespace Jianpu.Filename

/-- True of characters that stay in a file name as they are. -/
def isSafe (c : Char) : Bool :=
  c.isAlphanum || c == '_' || c == '-'

/-- Every run of blanks as one underscore. -/
def joinBlanks : (afterBlank : Bool) → List Char → List Char
  | _, [] => []
  | afterBlank, c :: rest =>
    if Text.isBlank c then
      if afterBlank then joinBlanks true rest else '_' :: joinBlanks true rest
    else c :: joinBlanks false rest

/-- A text as part of a file name. Characters that are neither safe nor blank are dropped before the
blanks are joined. -/
def normalize (text : String) : String :=
  let kept := (Text.trimmed text.toList).filter fun c => isSafe c || Text.isBlank c
  String.ofList (joinBlanks false kept)

/-- The name of a section's file: album, title and the section's number, counted from one. -/
def ofSection (title album : String) (index : Int) : String :=
  let title := normalize title
  let album := normalize album
  let stem := (if title.isEmpty then "Untitled" else title) ++ "_Section_" ++ toString (index + 1)
  (if album.isEmpty then stem else album ++ "_" ++ stem) ++ ".svg"

end Jianpu.Filename
