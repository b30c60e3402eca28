import Jianpu.Library.Store
import Jianpu.Text.Blank

set_option autoImplicit false

/-!
The melody library as one owner uses it. A document is saved under its title and album; saving over one
of the owner's own asks first, and while it asks no other save is let in.
-/
namespace Jianpu

/-- A store in the hands of an owner. -/
structure Library where
  store : Store
  owner : String
  /-- Whether a save is under way. -/
  isSaving : Bool := false

/-- Why a document is not saved; `ε` is why the question could not be answered. -/
inductive SaveError (ε : Type) where
  | missingTitle
  | store (error : StoreError)
  | unanswered (reason : ε)

/-- The wording of a missing title. -/
def missingTitleMessage : String :=
  "Please enter a title."

/-- Why a document is not loaded. -/
inductive LoadError where
  /-- No record has the number. -/
  | unknown (id : Int)
  /-- The content of the record is nested too deeply to be read. -/
  | tooDeep
  /-- The record has a text where a document has a number. -/
  | worded (found : Record.Worded)
  | store (error : StoreError)

namespace Library

/-- The number of records a listing shows. -/
def listLimit : Int := 50

/-- Keeps the store of a query's outcome. -/
def keep {α : Type} (library : Library) (outcome : Store.Outcome α) :
    Except StoreError α × Library :=
  (outcome.1, { library with store := outcome.2 })

/-- The most recent records of all owners. -/
def recent (library : Library) (limit : Int) : Except StoreError (List Record) × Library :=
  library.keep (library.store.recent limit)

/-- Asks whether a document may take the place of one that is stored. Whatever happens to the library
while the question stands is in the library it comes back with. -/
abbrev Confirmation (ε : Type) :=
  Document → Library → Except ε Bool × Library

/-- Writes a document over the record that has its title and album, if that is confirmed. -/
def overwrite {ε : Type} (library : Library) (confirm : Confirmation ε) (document : Document)
    (content : String) (id : Int) : Except (SaveError ε) (Option Int) × Library :=
  match confirm document library with
  | (.error reason, asked) => (.error (.unanswered reason), asked)
  | (.ok false, asked) => (.ok none, asked)
  | (.ok true, asked) =>
    let (result, updated) := asked.keep
      (asked.store.update id content document.keyIndex document.tempo)
    ((result.map fun _ => some id).mapError .store, updated)

/-- The draft of a document's record. -/
def draftOf (library : Library) (now : String) (document : Document) (content : String) :
    Store.Draft where
  title := document.title
  album := document.album
  content := content
  keyIndex := document.keyIndex
  tempo := document.tempo
  owner := library.owner
  created := now

/-- Writes a document that has a title, over a record or as a new one. -/
def write {ε : Type} (library : Library) (now : String) (confirm : Confirmation ε)
    (document : Document) : Except (SaveError ε) (Option Int) × Library :=
  let content := Envelope.encode { blocks := document.blocks, settings := document.settings }
  match library.keep (library.store.findId document.title document.album library.owner) with
  | (.error error, same) => (.error (.store error), same)
  | (.ok (some id), same) => same.overwrite confirm document content id
  | (.ok none, same) =>
    let (result, inserted) := same.keep (same.store.insert (same.draftOf now document content))
    ((result.map some).mapError .store, inserted)

/-- Saves a document and gives the number of its record; there is none when the save is declined or
another one is under way. -/
def save {ε : Type} (library : Library) (now : String) (confirm : Confirmation ε)
    (document : Document) : Except (SaveError ε) (Option Int) × Library :=
  if library.isSaving then (.ok none, library)
  else if (Text.trim document.title).isEmpty then (.error .missingTitle, library)
  else
    let (result, written) := { library with isSaving := true }.write now confirm document
    (result, { written with isSaving := false })

/-- Loads the document with a number, of any owner. -/
def load (library : Library) (reach : Envelope.Reach) (id : Int) :
    Except LoadError Document × Library :=
  match library.keep (library.store.get id) with
  | (.error error, same) => (.error (.store error), same)
  | (.ok none, same) => (.error (.unknown id), same)
  | (.ok (some record), same) =>
    match Envelope.decode? reach record.content with
    | none => (.error .tooDeep, same)
    | some envelope => ((record.documentOf envelope).mapError .worded, same)

/-- Deletes a record of the owner's; says whether there was one. -/
def delete (library : Library) (id : Int) : Except StoreError Bool × Library :=
  match library.keep (library.store.get id) with
  | (.error error, same) => (.error error, same)
  | (.ok none, same) => (.ok false, same)
  | (.ok (some record), same) =>
    if record.owner = some library.owner then
      let (result, deleted) := same.keep (same.store.delete id)
      (result.map fun _ => true, deleted)
    else (.ok false, same)

end Library

end Jianpu
