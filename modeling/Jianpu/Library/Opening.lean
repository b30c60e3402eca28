import Jianpu.File.Tree
import Jianpu.Library.Location
import Jianpu.Library.Store

set_option autoImplicit false

/-!
Libraries in a file tree: the database file, and beside it the file with the name of the owner.
-/
namespace Jianpu

/-- Why a library could not be opened. -/
inductive OpeningError where
  /-- A directory, the owner's file or the name of the database could not be used. -/
  | file (error : FileError)
  | store (error : StoreError)

namespace Store

/-- The most octets of a relative path, which leave room for the working directory in front of it: an
absolute path has at most 504. -/
def longestPath : Nat := 487

/-- The most octets of a relative path before a step up shortens it. -/
def longestWay : Nat := 494

/-- The places that a path comes by on the way to its own. -/
def stations (path : Path) : List Path :=
  (List.range path.parts.length).map fun count => { path with parts := path.parts.take count }.resolved

/-- What follows the name of a database in the name of its journal, the file without which nothing is
written to it. -/
def journalSuffix : String := "-journal"

/-- The words for a file that cannot be opened. -/
def cannotOpen : String := "unable to open database file"

/-- The words for permissions that cannot be looked up. -/
def cannotLookUp : String := "disk I/O error"

/-- True of a path that cannot be followed: too long, or through something that is no directory. -/
def isUnreachable (tree : FileTree Database) (path : Path) : Bool :=
  let size (place : Path) : Nat := (FileName.octets place.text).length
  let place := path.resolved
  longestPath < size place || (stations path).any (fun station => longestWay < size station)
    || place.parts.any FileTree.isTooLong || place.ancestry.dropLast.any tree.isFile

/-- What stands at a place that can be followed: the database of a file, or the words of the refusal. A
missing file and one without content are blank; a file of one octet counts as one without. -/
def foundAt (tree : FileTree Database) (place : Path) (mode : AccessMode) : Except String Database :=
  match tree.find? place with
  | none => if mode = .create ∧ tree.isDirectory place.parent then .ok .blank else .error cannotOpen
  | some .directory => .error cannotOpen
  | some (.database database) => .ok database
  | some (.file octets) => if 1 < octets.length then .error "file is not a database" else .ok .blank

/-- The database that is found at the end of a path, or the words of the refusal. The file whose
permissions are to be taken over has to be there. -/
def found (tree : FileTree Database) (path : Path) (access : FileAccess) : Except String Database :=
  if isUnreachable tree path then .error cannotOpen
  else if access.likeFile.any fun model => (tree.status model).toOption.isNone then
    .error cannotLookUp
  else foundAt tree path.resolved access.mode

/-- The files with a store's database in its place; one that is held by its connection alone is in
none. An open transaction is undone. -/
def leftIn (store : Store) (tree : FileTree Database) (name : String) : FileTree Database :=
  match DatabaseLocation.ofName name with
  | .ok (.file path _) => tree.put (Path.ofText path) (.database store.close.database)
  | _ => tree

/-- Opens a database by its name, when the directory of the name is there. -/
def connect (tree : FileTree Database) (name : String) :
    Except OpeningError Store × FileTree Database :=
  let refused (reason : String) : Except OpeningError Store × FileTree Database :=
    (.error (.store (.unopened name reason)), tree)
  let leftEmpty (reason : String) (place : Path) : Except OpeningError Store × FileTree Database :=
    ((refused reason).1, if tree.contains place then tree else tree.put place (.file []))
  match FileTree.unusable? name, DatabaseLocation.ofName name with
  | some (.unencodable fault), _ => (.error (.file ⟨.unencodable fault, name⟩), tree)
  | some .nullCharacter, _ => (.error (.file ⟨.nullCharacter, name⟩), tree)
  | _, .error (.refused reason) => refused reason
  | _, .error (.illegible fault) => (.error (.file ⟨.undecodable fault, name⟩), tree)
  | _, .ok .transient => (.ok (ofDatabase .blank), tree)
  | _, .ok (.file path access) =>
    let place := (Path.ofText path).resolved
    let isReadOnly := access.isFrozen || access.mode == .readOnly
    match found tree (Path.ofText path) access with
    | .error reason => refused reason
    | .ok database =>
      if database.isBlank ∧ isReadOnly then leftEmpty DatabaseLocation.readOnlyRefusal place
      else if database.isBlank ∧ FileTree.isTooLong (place.name ++ journalSuffix) then
        leftEmpty cannotOpen place
      else
        let store := { ofDatabase database with isReadOnly }
        (.ok store, store.leftIn tree name)

/-- Opens a database by its name. The directory of the name is made, except for the name of a database
without a file. -/
def openAt (tree : FileTree Database) (name : String) :
    Except OpeningError Store × FileTree Database :=
  if name = DatabaseLocation.inMemory then (.ok (ofDatabase .blank), tree)
  else
    match tree.makeDirectories (Path.ofText name).parent with
    | (.error error, made) => (.error (.file error), made)
    | (.ok (), made) => connect made name

end Store

namespace Owner

/-- The name of the file that holds the owner. -/
def fileName : String := "user_id"

/-- True of a name of the form that new owners get: nine digits or small letters after a prefix. -/
def isWellFormed (name : String) : Bool :=
  match name.toList with
  | 'u' :: 's' :: 'e' :: 'r' :: '_' :: tail =>
    tail.length == 9 && tail.all fun c => ('0' ≤ c && c ≤ '9') || ('a' ≤ c && c ≤ 'z')
  | _ => false

/-- Gives the owner a new name and stores it. -/
def establish (tree : FileTree Database) (directory : Path) (fresh : String) :
    Except OpeningError String × FileTree Database :=
  match tree.makeDirectories directory with
  | (.error error, made) => (.error (.file error), made)
  | (.ok (), made) =>
    let (outcome, written) := made.writeText (directory.child fileName) fresh
    ((outcome.map fun () => fresh).mapError .file, written)

/-- The owner of the libraries in a directory. Where none is stored, the fresh name is. -/
def load (tree : FileTree Database) (directory : Path) (fresh : String) :
    Except OpeningError String × FileTree Database :=
  let path := directory.child fileName
  match tree.exists? path.text with
  | .error error => (.error (.file error), tree)
  | .ok false => establish tree directory fresh
  | .ok true =>
    match tree.readText path with
    | .error error => (.error (.file error), tree)
    | .ok text =>
      let stored := Text.trim text
      if stored.isEmpty then establish tree directory fresh else (.ok stored, tree)

end Owner

end Jianpu
