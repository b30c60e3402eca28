import Jianpu.Document
import Jianpu.Json.Nesting
import Jianpu.Json.Plain
import Jianpu.Json.Writer

set_option autoImplicit false

/-!
The stored form of a document's blocks and settings. What is written is a JSON object of one shape;
what is read may also have an older shape: an object whose blocks may be bare strings, or a bare array
of blocks. Any other text is kept whole as a single melody block, so that reading fails only on what is
nested too deeply.
-/
namespace Jianpu

open Number (Amount)

/-- Blocks and settings, with the key and the tempo if they are stored along. -/
structure Envelope where
  blocks : List Block
  settings : Settings Amount
  keyIndex : Option Amount := none
  tempo : Option Amount := none

namespace Envelope

/-- A block as JSON. -/
def blockJson (block : Block) : Json :=
  .object [("type", .string block.kind.name), ("content", .string block.content)]

/-- An envelope as JSON. Key and tempo are members only when they are given. -/
def toJson (envelope : Envelope) : Json :=
  .object (
    [ ("blocks", .array (envelope.blocks.map blockJson)),
      ("settings", .object
        [ ("horizontalSpacing", .number envelope.settings.spacing),
          ("verticalScale", .number envelope.settings.scale) ]) ]
    ++ (envelope.keyIndex.map fun index => ("keyIndex", Json.number index)).toList
    ++ (envelope.tempo.map fun tempo => ("tempoBPM", Json.number tempo)).toList)

/-- The stored text of an envelope. -/
def encode (envelope : Envelope) : String :=
  envelope.toJson.text

/-- A block that states a known kind and a text. -/
def strictBlock? (json : Json) : Option Block := do
  let kindName ← (← json.get? "type").string?
  let kind ← BlockKind.ofName? kindName
  let content ← (← json.get? "content").string?
  return ⟨kind, content⟩

/-- A bare string, or an object whose kind is taken for melody and whose content for empty when they
are missing or of the wrong type. -/
def lenientBlock? : Json → Option Block
  | .string content => some ⟨.melody, content⟩
  | .object members =>
    let json := Json.object members
    let kind := ((json.get? "type").bind Json.string?).bind BlockKind.ofName?
    let content := (json.get? "content").bind Json.string?
    some ⟨kind.getD .melody, content.getD ""⟩
  | _ => none

/-- The current shape: strict blocks and both settings. A key or tempo that is no whole number is
passed over. -/
def current? (json : Json) : Option Envelope := do
  let items ← (← json.get? "blocks").items?
  let settings ← json.get? "settings"
  let spacing ← (← settings.get? "horizontalSpacing").amount?
  let scale ← (← settings.get? "verticalScale").amount?
  let blocks ← items.mapM strictBlock?
  return {
    blocks
    settings := ⟨spacing, scale⟩
    keyIndex := ((json.get? "keyIndex").bind Json.int?).map .whole
    tempo := ((json.get? "tempoBPM").bind Json.int?).map .whole }

/-- A setting of an older shape: a missing number and zero both mean the standard one. -/
def settingOr (standard : Amount) (stored : Option Json) : Amount :=
  match stored.bind Json.amount? with
  | some amount => if amount.isZero then standard else amount
  | none => standard

/-- The older object shape: lenient blocks, and settings whose spacing may go by the name `kerning`. -/
def lenientObject? (json : Json) : Option Envelope := do
  let items ← (← json.get? "blocks").items?
  let blocks ← items.mapM lenientBlock?
  let setting (name : String) : Option Json := (json.get? "settings").bind (Json.get? name)
  return {
    blocks
    settings :=
      { spacing :=
          settingOr Settings.standard.spacing ((setting "horizontalSpacing").or (setting "kerning"))
        scale := settingOr Settings.standard.scale (setting "verticalScale") } }

/-- The oldest shape: an array of lenient blocks. -/
def lenientArray? (json : Json) : Option Envelope := do
  let items ← json.items?
  let blocks ← items.mapM lenientBlock?
  return { blocks, settings := .standard }

/-- A text that has none of the shapes, as one melody block. -/
def ofRaw (raw : String) : Envelope :=
  { blocks := [⟨.melody, raw⟩], settings := .standard }

/-- Reads a stored text, trying the shapes from the current to the oldest one. An envelope without
blocks has one empty melody block. -/
def decode (raw : String) : Envelope :=
  match Json.parse? raw with
  | none => ofRaw raw
  | some json =>
    match ((current? json).or (lenientObject? json)).or (lenientArray? json) with
    | none => ofRaw raw
    | some envelope => if envelope.blocks.isEmpty then { envelope with blocks := [{}] } else envelope

/-- How deep a text may nest to be read. The reader is given what room its caller leaves it, which is
enough for the stored form of a document. -/
structure Reach where
  depth : Nat
  coversDocuments : 3 ≤ depth

/-- The reach of a reader whose callers have left it about all the room. -/
def Reach.usual : Reach := ⟨990, by decide⟩

/-- Reads a stored text unless it is nested too deeply. -/
def decode? (reach : Reach) (raw : String) : Option Envelope :=
  if Json.isTooDeep reach.depth raw then none else some (decode raw)

/-- Reads what is stored where a text should be. What is no text is kept whole in plain words. -/
def ofStored? (reach : Reach) : Json → Option Envelope
  | .string raw => decode? reach raw
  | other => some (ofRaw other.plainText)

end Envelope

end Jianpu
