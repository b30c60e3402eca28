import Jianpu.File.Fault
import Jianpu.File.Path
import Jianpu.Text.Lines

set_option autoImplicit false

/-!
A tree of files and directories. Besides ordinary files there are files of another program's format,
whose content is a value of type `δ`. A path is followed component by component, as an operating system
has it: every component before the last has to be a directory that is there, also one that is left again
by a step up.
-/
namespace Jianpu

/-- Contents of files that are no text. -/
class Illegible (δ : Type) where
  /-- The first octets that rule a text out. -/
  fault : δ → Text.Utf8.Fault

/-- An entry of a file tree. -/
inductive FileEntry (δ : Type) where
  | file (octets : List UInt8)
  | directory
  | database (content : δ)

/-- The entries below the working directory and the root, by place; the first entry of a place counts.
The places are resolved paths. -/
structure FileTree (δ : Type) where
  entries : List (Path × FileEntry δ)

namespace FileTree

variable {δ : Type}

/-- The entry at a place. The working directory, those above it and the root are directories. -/
def find? (tree : FileTree δ) (path : Path) : Option (FileEntry δ) :=
  let place := path.resolved
  if place.parts.all (· == "..") then some .directory
  else (tree.entries.find? fun entry => entry.1 == place).map (·.2)

/-- True when an entry stands at the place. -/
def contains (tree : FileTree δ) (path : Path) : Bool :=
  (tree.find? path).isSome

/-- True when a directory stands at the place. -/
def isDirectory (tree : FileTree δ) (path : Path) : Bool :=
  match tree.find? path with
  | some .directory => true
  | _ => false

/-- True when something other than a directory stands at the place. -/
def isFile (tree : FileTree δ) (path : Path) : Bool :=
  tree.contains path && !tree.isDirectory path

/-- Puts an entry at a place, in place of one that stands there. -/
def put (tree : FileTree δ) (path : Path) (entry : FileEntry δ) : FileTree δ :=
  let place := path.resolved
  ⟨(place, entry) :: tree.entries.filter fun other => other.1 != place⟩

/-! Following paths. -/

/-- The most octets of a component. -/
def longestName : Nat := 255

/-- The most octets of a whole path. -/
def longestPath : Nat := 4095

/-- True of a component that is too long. -/
def isTooLong (name : String) : Bool :=
  longestName < (FileName.octets name).length

/-- Follows components from a directory on, each of which has to lead to a directory. -/
def enter (tree : FileTree δ) : (here : Path) → List String → Except FileFault Path
  | here, [] => .ok here
  | here, part :: rest =>
    if part = "." then tree.enter here rest
    else if part = ".." then tree.enter here.above rest
    else if isTooLong part then .error .nameTooLong
    else
      match tree.find? (here.child part) with
      | none => .error .missing
      | some .directory => tree.enter (here.child part) rest
      | some _ => .error .notDirectory

/-- What keeps a text from being a path at all. -/
def unusable? (text : String) : Option FileFault :=
  match FileName.fault? text with
  | some fault => some (.unencodable fault)
  | none =>
    if text.toList.contains '\x00' then some .nullCharacter
    else if text.isEmpty then some .missing
    else if longestPath < (FileName.octets text).length then some .nameTooLong
    else none

/-- Where a path leads to: the directory of its last component, and that component. A dot and two dots
are no entries of a directory but the directories themselves. -/
def approach (tree : FileTree δ) (text : String) : Except FileFault (Path × Option String) :=
  match unusable? text with
  | some fault => .error fault
  | none =>
    let parts := Path.components text
    let start : Path := ⟨if (Path.rootOf text).isEmpty then "" else "/", []⟩
    match parts.getLast? with
    | none => .ok (start, none)
    | some last => do
      let directory ← tree.enter start parts.dropLast
      if last = "." then return (directory, none)
      else if last = ".." then return (directory.above, none)
      else return (directory, some last)

/-- The entry of a directory with a name. -/
def entryIn (tree : FileTree δ) (directory : Path) (name : String) :
    Except FileFault (Option (FileEntry δ)) :=
  if isTooLong name then .error .nameTooLong else .ok (tree.find? (directory.child name))

/-- True of a path that can only be that of a directory. -/
def endsWithSlash (text : String) : Bool :=
  text.toList.getLast? == some '/'

/-- The entry that a path leads to. -/
def status (tree : FileTree δ) (text : String) : Except FileFault (FileEntry δ) := do
  match ← tree.approach text with
  | (_, none) => return .directory
  | (directory, some name) =>
    match ← tree.entryIn directory name with
    | none => throw .missing
    | some .directory => return .directory
    | some entry => if endsWithSlash text then throw .notDirectory else return entry

/-- Whether a path leads to an entry. A component that is missing or no directory and a text that is no
path say no; a component that is too long is a fault. -/
def exists? (tree : FileTree δ) (text : String) : Except FileError Bool :=
  match tree.status text with
  | .ok _ => .ok true
  | .error .nameTooLong => .error ⟨.nameTooLong, text⟩
  | .error _ => .ok false

/-- True when a path leads to a directory. -/
def leadsToDirectory (tree : FileTree δ) (text : String) : Bool :=
  match tree.status text with
  | .ok .directory => true
  | _ => false

/-! Reading and writing. -/

/-- The octets of a file. The octets of a database are not modelled and read as none. -/
def readOctets (tree : FileTree δ) (text : String) : Except FileError (List UInt8) :=
  match tree.status text with
  | .error fault => .error ⟨fault, text⟩
  | .ok .directory => .error ⟨.isDirectory, text⟩
  | .ok (.file octets) => .ok octets
  | .ok (.database _) => .ok []

/-- The place of a file to be written, a new one or an old one. A path that ends in a slash is that of
a directory even where nothing stands. -/
def placeToWrite (tree : FileTree δ) (text : String) : Except FileFault Path := do
  match ← tree.approach text with
  | (_, none) => throw .isDirectory
  | (directory, some name) =>
    if endsWithSlash text then throw .isDirectory
    match ← tree.entryIn directory name with
    | some .directory => throw .isDirectory
    | _ => return directory.child name

/-- Writes a file. -/
def writeOctets (tree : FileTree δ) (text : String) (octets : List UInt8) :
    Except FileError (FileTree δ) :=
  match tree.placeToWrite text with
  | .error fault => .error ⟨fault, text⟩
  | .ok place => .ok (tree.put place (.file octets))

/-- Makes a directory where nothing stands. -/
def makeDirectory (tree : FileTree δ) (text : String) : Except FileFault (FileTree δ) := do
  match ← tree.approach text with
  | (_, none) => throw .exists
  | (directory, some name) =>
    match ← tree.entryIn directory name with
    | some _ => throw .exists
    | none => return tree.put (directory.child name) .directory

/-- Makes the directory of a path with the given number of components, and before it those above that
are missing. One that stands already is left as it is. -/
def makeWithin (tree : FileTree δ) (path : Path) : (depth : Nat) → Except FileError Unit × FileTree δ
  | 0 => (.ok (), tree)
  | depth + 1 =>
    let settle (tree : FileTree δ) (fault : FileFault) : Except FileError Unit × FileTree δ :=
      if tree.leadsToDirectory path.text then (.ok (), tree) else (.error ⟨fault, path.text⟩, tree)
    match tree.makeDirectory path.text with
    | .ok made => (.ok (), made)
    | .error .missing =>
      match tree.makeWithin path.parent depth with
      | (.error error, partly) => (.error error, partly)
      | (.ok (), above) =>
        match above.makeDirectory path.text with
        | .ok made => (.ok (), made)
        | .error fault => settle above fault
    | .error fault => settle tree fault

/-- Makes a directory and the ones above it, and says whether that went well. -/
def makeDirectories (tree : FileTree δ) (path : Path) : Except FileError Unit × FileTree δ :=
  tree.makeWithin path path.parts.length

/-- The text of a file, with every line end as a line feed. -/
def readText [Illegible δ] (tree : FileTree δ) (path : Path) : Except FileError String :=
  match tree.status path.text with
  | .error fault => .error ⟨fault, path.text⟩
  | .ok .directory => .error ⟨.isDirectory, path.text⟩
  | .ok (.database content) => .error ⟨.undecodable (Illegible.fault content), path.text⟩
  | .ok (.file octets) =>
    match Text.Utf8.decode octets with
    | .error fault => .error ⟨.undecodable fault, path.text⟩
    | .ok characters => .ok (String.ofList (Text.unifyLineEnds characters))

/-- Writes a text file, and says whether that went well. The file is there before the text is spelled
out, and stays empty when that fails. -/
def writeText (tree : FileTree δ) (path : Path) (text : String) :
    Except FileError Unit × FileTree δ :=
  let (octets, outcome) : List UInt8 × Except FileError Unit :=
    match Text.Utf8.encode text with
    | .ok octets => (octets, .ok ())
    | .error fault => ([], .error ⟨.unencodable fault, path.text⟩)
  match tree.writeOctets path.text octets with
  | .error error => (.error error, tree)
  | .ok written => (outcome, written)

/-- The octets of the ordinary file at a place. -/
def octetsAt? (tree : FileTree δ) (path : Path) : Option (List UInt8) :=
  match tree.find? path with
  | some (.file octets) => some octets
  | _ => none

/-- The ordinary files that are new since an earlier state or whose octets differ from it. -/
def changedSince (tree before : FileTree δ) : List (Path × List UInt8) :=
  tree.entries.filterMap fun (path, _) =>
    match tree.octetsAt? path with
    | some octets => if before.octetsAt? path = some octets then none else some (path, octets)
    | none => none

end FileTree

end Jianpu
