import Jianpu.Document.Envelope
import Jianpu.Library.Datum

set_option autoImplicit false

/-!
Records of the melody library: a document with its blocks and settings in stored form, and beside them
what a query can see. Key and tempo may be missing, from a time when they were not kept, and may be any
numbers. A text that is no numeral may stand in their place; then there is no document.
-/
namespace Jianpu

open Number (Amount)

/-- A stored melody. -/
structure Record where
  id : Int
  title : String
  album : String
  /-- The blocks and settings in stored form. -/
  content : String
  keyIndex : Datum
  tempo : Datum
  owner : Option String
  /-- The time of the first save, in a form whose text order is the order of time. -/
  created : String

namespace Record

/-- The tempo of records that were stored without one. -/
def loadedTempo : Amount := 60

/-- A stored value, or a standard number in place of a missing one, of zero and of the empty text. -/
def orStandard (standard : Amount) : Datum → Datum
  | .missing => standard
  | .number amount => .number (if amount.isZero then standard else amount)
  | .text words => if words.isEmpty then .number standard else .text words

/-- What a record comes to that has a text for its key or its tempo. -/
structure Worded where
  keyIndex : Datum
  tempo : Datum
  /-- The document that the record would be with a standard number for each text. -/
  otherwise : Document

/-- The document of a record with the blocks and settings of an envelope. -/
def documentOf (record : Record) (envelope : Envelope) : Except Worded Document :=
  let document (keyIndex tempo : Amount) : Document :=
    { title := record.title, album := record.album, keyIndex, tempo
      blocks := envelope.blocks, settings := envelope.settings }
  match orStandard Key.defaultIndex record.keyIndex, orStandard loadedTempo record.tempo with
  | .number keyIndex, .number tempo => .ok (document keyIndex tempo)
  | keyIndex, tempo =>
    let number (standard : Amount) : Datum → Amount
      | .number amount => amount
      | _ => standard
    .error ⟨keyIndex, tempo, document (number Key.defaultIndex keyIndex) (number loadedTempo tempo)⟩

end Record

end Jianpu
