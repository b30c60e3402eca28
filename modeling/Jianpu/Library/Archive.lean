import Jianpu.Json.Reader
import Jianpu.Json.Writer
import Jianpu.Library.Store

set_option autoImplicit false

/-!
Databases in files: the records and the highest number given, as a JSON text.
-/
namespace Jianpu.Database

/-- A record as JSON. -/
def recordJson (record : Record) : Json :=
  .object
    [ ("id", .int record.id), ("title", .string record.title), ("album", .string record.album),
      ("content", .string record.content), ("keyIndex", record.keyIndex.json),
      ("tempo", record.tempo.json),
      ("owner", (record.owner.map Json.string).getD .null), ("created", .string record.created) ]

/-- A record from JSON. -/
def recordOf? (json : Json) : Option Record := do
  return {
    id := ← (← json.get? "id").int?
    title := ← (← json.get? "title").string?
    album := ← (← json.get? "album").string?
    content := ← (← json.get? "content").string?
    keyIndex := ((json.get? "keyIndex").map Datum.ofJson).getD .missing
    tempo := ((json.get? "tempo").map Datum.ofJson).getD .missing
    owner := (json.get? "owner").bind Json.string?
    created := ← (← json.get? "created").string? }

/-- The text of a database. -/
def archiveText (table : MelodyTable) : String :=
  (Json.object
    [("melodies", .array (table.records.map recordJson)), ("lastId", .int table.lastId)]).text

/-- The database that a text holds, if it is the text of one. -/
def ofArchive? (octets : List UInt8) : Option Database := do
  let json ← Json.ofOctets? octets
  let records ← (← (← json.get? "melodies").items?).mapM recordOf?
  let lastId ← (← json.get? "lastId").int?
  return .melodies ⟨records, lastId⟩

end Jianpu.Database
