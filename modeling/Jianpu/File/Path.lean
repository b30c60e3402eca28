import Jianpu.File.Name

set_option autoImplicit false

/-!
Paths with slashes. Empty and dot components say nothing and are dropped, so a path has one text; a
file name's suffix is what follows its last dot, unless that dot is the first or the last character.
-/
namespace Jianpu

/-- A path, as the components from the root or from the working directory on. -/
structure Path where
  /-- What stands before the components: nothing, a slash, or two slashes. -/
  root : String
  parts : List String
  deriving Repr, DecidableEq

namespace Path

/-- Cuts a list at every slash. -/
def cutAtSlashes : List Char → List (List Char)
  | [] => [[]]
  | c :: rest =>
    if c = '/' then [] :: cutAtSlashes rest
    else
      match cutAtSlashes rest with
      | [] => [[c]]
      | first :: others => (c :: first) :: others

/-- The components of a text as they are spelled, dots among them. -/
def components (text : String) : List String :=
  ((cutAtSlashes text.toList).map String.ofList).filter fun part => part != ""

/-- The root that a text starts with. Two slashes are a root of their own; more are as good as one. -/
def rootOf (text : String) : String :=
  match text.toList with
  | '/' :: '/' :: '/' :: _ => "/"
  | '/' :: '/' :: _ => "//"
  | '/' :: _ => "/"
  | _ => ""

/-- The path that a text spells. -/
def ofText (text : String) : Path :=
  ⟨rootOf text, (components text).filter fun part => part != "."⟩

/-- The text of a path; the working directory is a dot. -/
def text (path : Path) : String :=
  if path.root.isEmpty && path.parts.isEmpty then "." else path.root ++ "/".intercalate path.parts

/-- The last component. -/
def name (path : Path) : String :=
  path.parts.getLast?.getD ""

/-- The path without its last component. -/
def parent (path : Path) : Path :=
  { path with parts := path.parts.dropLast }

/-- A path further down. -/
def child (path : Path) (component : String) : Path :=
  { path with parts := path.parts ++ [component] }

/-- A name as the part before its suffix and the suffix with its dot. -/
def splitName (name : String) : String × String :=
  let cs := name.toList
  let after := (cs.reverse.takeWhile (· != '.')).reverse
  let before := cs.take (cs.length - after.length - 1)
  if after.length < cs.length ∧ after ≠ [] ∧ before ≠ [] then
    (String.ofList before, String.ofList ('.' :: after))
  else (name, "")

/-- The last component without its suffix. -/
def stem (path : Path) : String :=
  (splitName path.name).1

/-- The suffix of the last component with its dot, or nothing. -/
def suffix (path : Path) : String :=
  (splitName path.name).2

/-- The path with another suffix. -/
def withSuffix (path : Path) (suffix : String) : Path :=
  path.parent.child (path.stem ++ suffix)

/-- The paths above a path, from the outermost to the path itself. -/
def ancestry (path : Path) : List Path :=
  (List.range path.parts.length).map fun count =>
    { path with parts := path.parts.take (count + 1) }

/-- One step up. Above the root is the root; above the working directory are further directories. -/
def above (path : Path) : Path :=
  if path.parts.all (· == "..") then
    if path.root.isEmpty then path.child ".." else path
  else path.parent

/-- The path without dots and with every step up taken, from the one root that there is. Every name in
it is the text of its octets. -/
def resolved (path : Path) : Path :=
  path.parts.foldl
    (fun here part => if part = ".." then here.above else here.child (FileName.settled part))
    ⟨if path.root.isEmpty then "" else "/", []⟩

/-- True of a resolved path that lies below the working directory. -/
def isBelow (path : Path) : Bool :=
  path.root.isEmpty && path.parts.head? != some ".."

end Path

end Jianpu
