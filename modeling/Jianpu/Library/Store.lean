import Jianpu.File.Tree
import Jianpu.Library.Location
import Jianpu.Library.Record

set_option autoImplicit false

/-!
The store of a melody library: a database with one table of records. Every query names a table and
columns that have to be there, holds texts that have octets and numbers that fit 64 bits, and may be
refused for a missing value. A number is never given to two records, not even after the first of them is
gone.

A query that changes records begins a transaction, which lasts until a query succeeds and keeps what was
done, or is refused and undoes it. A value that does not fit ends neither the one way nor the other.

A statement is prepared when it is first run: only then is it told that its table is missing before its
values are looked at. When the first value does not fit, a fault that was met before and still stands is
reported in its place.
-/
namespace Jianpu

/-- The table of melodies: the records in the order of their numbers, and the highest number given so
far. -/
structure MelodyTable where
  records : List Record := []
  lastId : Int := 0

/-- What a database may hold under the name of the table. -/
inductive Database where
  /-- Nothing. -/
  | blank
  | melodies (table : MelodyTable)
  /-- A table that has none of the columns. -/
  | foreign

/-- True of a database that holds nothing. -/
def Database.isBlank : Database → Bool
  | .blank => true
  | _ => false

/-- A database is no text: its schema begins with a table of places, and a place ends with an octet that
no character starts with or that another one has to follow. -/
instance : Illegible Database where
  fault
    | .foreign => ⟨0xC9, 106, 1, .invalidContinuation⟩
    | .blank | .melodies _ => ⟨0xBE, 109, 1, .invalidStart⟩

/-- Why a query fails. -/
inductive QueryFault where
  | noTable
  | noColumn (name : String)
  /-- A value that may not be missing is. -/
  | missingValue (column : String)
  /-- The number of a record is that of another one. -/
  | takenId
  /-- A value is no whole number where one is needed. -/
  | mismatch
  /-- No number is left. -/
  | full
  /-- The database is open for reading only. -/
  | readOnly
  deriving Repr, DecidableEq

/-- Why the store fails. -/
inductive StoreError where
  /-- The store has been closed. -/
  | closed
  /-- A number does not fit 64 bits. -/
  | outOfRange
  /-- A text has no octets. -/
  | unencodable (fault : Text.Utf8.EncodingFault)
  | unopened (path reason : String)
  | query (fault : QueryFault)
  deriving Repr, DecidableEq

/-- The wording of a query's failure. -/
def QueryFault.message : QueryFault → String
  | .noTable => "no such table: melodies"
  | .noColumn name => "no such column: " ++ name
  | .missingValue column => "NOT NULL constraint failed: melodies." ++ column
  | .takenId => "UNIQUE constraint failed: melodies.id"
  | .mismatch => "datatype mismatch"
  | .full => "database or disk is full"
  | .readOnly => DatabaseLocation.readOnlyRefusal

/-- The wording of a store's failure; there is none for misuse of a store. -/
def StoreError.message? : StoreError → Option String
  | .closed | .outOfRange | .unencodable _ => none
  | .unopened path reason => some ("Could not open melody library at " ++ path ++ ": " ++ reason)
  | .query fault => some ("Melody library query failed: " ++ fault.message)

/-- The statements of a connection. -/
inductive Statement where
  | recent
  | get
  | findId
  | insert
  | update
  | delete
  deriving Repr, DecidableEq

namespace Statement

/-- True of a statement that changes records. -/
def changes : Statement → Bool
  | .insert | .update | .delete => true
  | .recent | .get | .findId => false

/-- The column that a foreign table is found to lack. -/
def column : Statement → String
  | .recent => "created_at"
  | _ => "id"

end Statement

/-- What a database lacks for a statement. -/
def Database.lacks? (database : Database) (statement : Statement) : Option QueryFault :=
  match database with
  | .blank => some .noTable
  | .foreign => some (.noColumn statement.column)
  | .melodies _ => none

/-- An open or closed connection to a database. -/
structure Store where
  database : Database
  isOpen : Bool := true
  isReadOnly : Bool := false
  /-- The database as it was when the open transaction began, if there is one. -/
  begun : Option Database := none
  /-- The statements that have been prepared and are run again as they are. -/
  prepared : List Statement := []
  /-- The fault that was met last, until something goes well. -/
  standing : Option QueryFault := none

namespace Store

/-- Opens a database, which gets the table if it holds nothing of the name. -/
def ofDatabase : Database → Store
  | .blank => { database := .melodies {} }
  | database => { database }

/-- Keeps what the open transaction has done. -/
def commit (store : Store) (database : Database) : Store :=
  { store with database, begun := none, standing := none }

/-- Undoes what the open transaction has done. -/
def rollback (store : Store) : Store :=
  match store.begun with
  | some before => { store with database := before, begun := none, standing := none }
  | none => store

/-- Begins a transaction if none is open. -/
def begin (store : Store) : Store :=
  match store.begun with
  | some _ => store
  | none => { store with begun := some store.database, standing := none }

/-- Closes the connection; an open transaction is undone. -/
def close (store : Store) : Store :=
  { store.rollback with isOpen := false }

/-- Why a value cannot be passed to the database. -/
def refusal? : Datum → Option StoreError
  | .text words => (Text.Utf8.encodingFault? words).map .unencodable
  | .number (.whole n) => if Datum.fits n then none else some .outOfRange
  | .number (.real _) | .missing => none

/-- The query's outcome and the store after it. -/
abbrev Outcome (α : Type) := Except StoreError α × Store

/-- A query that is refused. The fault stands unless undoing the transaction went well after it; a full
database has undone it before. -/
def refuse {α : Type} (store : Store) (fault : QueryFault) : Outcome α :=
  let undone := store.rollback
  let stands := store.begun.isNone || fault == .full
  (.error (.query fault), { undone with standing := if stands then some fault else none })

/-- The store with a statement prepared, or what its database lacks. -/
def prepare (store : Store) (statement : Statement) : Except QueryFault Store :=
  if store.prepared.contains statement then .ok store
  else
    match store.database.lacks? statement with
    | some fault => .error fault
    | none => .ok { store with prepared := statement :: store.prepared, standing := none }

/-- A query with a value that cannot be passed. One that can be passed before it clears the fault that
stands; when the first value cannot be passed, that fault is reported. -/
def mispass {α : Type} (store : Store) (values : List Datum) (error : StoreError) : Outcome α :=
  match values.head?.bind refusal?, store.standing with
  | some _, some fault => store.refuse fault
  | _, _ => (.error error, { store with standing := none })

/-- Runs a prepared statement on the table. -/
def execute {α : Type} (store : Store) (statement : Statement)
    (run : MelodyTable → Except QueryFault (α × MelodyTable)) : Except QueryFault (α × MelodyTable) :=
  if statement.changes && store.isReadOnly then .error .readOnly
  else
    match store.database with
    | .blank => .error .noTable
    | .foreign => .error (.noColumn statement.column)
    | .melodies table => run table

/-- Runs a query. The first of the values that cannot be passed decides. -/
def query {α : Type} (store : Store) (statement : Statement) (values : List Datum)
    (run : MelodyTable → Except QueryFault (α × MelodyTable)) : Outcome α :=
  if !store.isOpen then (.error .closed, store)
  else
    match store.prepare statement with
    | .error fault => store.refuse fault
    | .ok ready =>
      let started := if statement.changes then ready.begin else ready
      match values.findSome? refusal? with
      | some error => started.mispass values error
      | none =>
        match started.execute statement run with
        | .error fault => started.refuse fault
        | .ok (result, changed) => (.ok result, started.commit (.melodies changed))

/-- The order of a listing: the newest record first, of two of one time the one with the higher
number. Times are compared by their code points. -/
def listedBefore (left right : Record) : Bool :=
  let numbers (record : Record) : List Nat := (Text.codePoints record.created).map (·.number)
  decide (numbers right < numbers left)
    || (left.created == right.created && decide (right.id ≤ left.id))

/-- The most recent records; a limit below zero is none. -/
def recent (store : Store) (limit : Int) : Outcome (List Record) :=
  store.query .recent [.number limit] fun table =>
    let sorted := table.records.mergeSort listedBefore
    .ok (if limit < 0 then sorted else sorted.take limit.toNat, table)

/-- True of the record with a number. -/
def isNumbered (record : Record) (id : Datum) : Bool :=
  id.whole? == some record.id

/-- The record with a number. -/
def get (store : Store) (id : Datum) : Outcome (Option Record) :=
  store.query .get [id] fun table =>
    .ok (table.records.find? fun r => isNumbered r id, table)

/-- True of a record with a title, an album and an owner; a missing value equals nothing. -/
def isNamed (record : Record) (title album owner : Datum) : Bool :=
  title.words? == some record.title && album.words? == some record.album
    && (match owner.words? with
      | some name => record.owner == some name
      | none => false)

/-- The number of the record with a title, an album and an owner. -/
def findId (store : Store) (title album owner : Datum) : Outcome (Option Int) :=
  store.query .findId [title, album, owner] fun table =>
    .ok ((table.records.find? fun r => isNamed r title album owner).map (·.id), table)

/-- The values of a new record. A record gets the next number unless it brings one. -/
structure Draft where
  id : Datum := .missing
  title : Datum
  album : Datum
  content : Datum
  keyIndex : Datum
  tempo : Datum
  owner : Datum
  created : Datum

/-- The record of a draft under a number; four of its values may not be missing. -/
def Draft.record (draft : Draft) (id : Int) : Except QueryFault Record :=
  match draft.title.words?, draft.album.words?, draft.content.words?, draft.created.words? with
  | none, _, _, _ => .error (.missingValue "title")
  | _, none, _, _ => .error (.missingValue "album")
  | _, _, none, _ => .error (.missingValue "content")
  | _, _, _, none => .error (.missingValue "created_at")
  | some title, some album, some content, some created =>
    .ok { id, title, album, content, keyIndex := draft.keyIndex.counted
          tempo := draft.tempo.counted, owner := draft.owner.words?, created }

/-- Records with one more in its place. -/
def including (record : Record) : List Record → List Record
  | [] => [record]
  | first :: rest =>
    if record.id < first.id then record :: first :: rest else first :: including record rest

/-- The number of a new record: the one it brings, or the next one that was never given. -/
def numberFor (table : MelodyTable) (own : Datum) : Except QueryFault Int :=
  match own.counted with
  | .number (.whole id) => .ok id
  | .missing => if Datum.fits (table.lastId + 1) then .ok (table.lastId + 1) else .error .full
  | _ => .error .mismatch

/-- The values of a draft in their order, with the number only if it brings one. -/
def Draft.values (draft : Draft) : List Datum :=
  let others := [draft.title, draft.album, draft.content, draft.keyIndex, draft.tempo, draft.owner,
    draft.created]
  match draft.id with
  | .missing => others
  | id => id :: others

/-- The number of a draft's record, and the table with that record. -/
def inserted (draft : Draft) (table : MelodyTable) : Except QueryFault (Int × MelodyTable) := do
  let id ← numberFor table draft.id
  let record ← draft.record id
  if table.records.any fun other => other.id == id then throw .takenId
  return (id, { records := including record table.records, lastId := max table.lastId id })

/-- Adds a record and gives its number. -/
def insert (store : Store) (draft : Draft) : Outcome Int :=
  store.query .insert draft.values (inserted draft)

/-- Gives the record with a number a new content, key and tempo. -/
def update (store : Store) (id content keyIndex tempo : Datum) : Outcome Unit :=
  store.query .update [content, keyIndex, tempo, id] fun table =>
    if !table.records.any fun r => isNumbered r id then .ok ((), table)
    else
      match content.words? with
      | none => .error (.missingValue "content")
      | some content =>
        let change (record : Record) : Record :=
          if isNumbered record id then
            { record with content, keyIndex := keyIndex.counted, tempo := tempo.counted }
          else record
        .ok ((), { table with records := table.records.map change })

/-- Removes the record with a number. -/
def delete (store : Store) (id : Datum) : Outcome Unit :=
  store.query .delete [id] fun table =>
    .ok ((), { table with records := table.records.filter fun r => !isNumbered r id })

/-! Statements that are run by themselves, without what a query does at its end. -/

/-- A statement that is refused. -/
def misrun {α : Type} (store : Store) (fault : QueryFault) : Outcome α :=
  (.error (.query fault), { store with standing := some fault })

/-- Adds a record for good. Where that is refused the transaction stays open, except that a full table
ends it. -/
def seed (store : Store) (draft : Draft) : Outcome Int :=
  if !store.isOpen then (.error .closed, store)
  else
    match store.database.lacks? .insert with
    | some fault => store.misrun fault
    | none =>
      let started := { store with standing := none }.begin
      match draft.values.findSome? refusal?, started.execute .insert (inserted draft) with
      | some error, _ => (.error error, started)
      | none, .error .full => started.rollback.misrun .full
      | none, .error fault => started.misrun fault
      | none, .ok (id, changed) => (.ok id, started.commit (.melodies changed))

/-- Removes the table. In an open transaction it can come back. -/
def dropTable (store : Store) : Outcome Unit :=
  if !store.isOpen then (.error .closed, store)
  else if store.database.isBlank then store.misrun .noTable
  else if store.isReadOnly then store.misrun .readOnly
  else (.ok (), { store with database := .blank, standing := none })

end Store

end Jianpu
