import Jianpu.Proofs.Document.Envelope
import Jianpu.Proofs.Library.Store
import Mathlib.Logic.Function.Basic

/-! A shelf: a map from numbers to documents with their owners, on which every
document has a name of its own. The table of a shelf has a record for each of
them, and the queries of a store find and change the records as a shelf does. -/

set_option autoImplicit false

namespace Jianpu

open Json (IsReadable)
open Number (Amount)

namespace Document

/-- The text that a document's blocks and settings are stored as. -/
def stored (document : Document) : String :=
  Envelope.encode { blocks := document.blocks, settings := document.settings }

/-- A document with blocks of the two kinds, a key and a tempo of 64 bits, and
settings whose numerals can be read. -/
structure Fits (document : Document) : Prop where
  kinds : ∀ block ∈ document.blocks, block.kind = .melody ∨ block.kind = .chords
  keyIndex : ∃ index : Int, document.keyIndex = .whole index ∧ Datum.fits index = true
  tempo : ∃ beats : Int, document.tempo = .whole beats ∧ Datum.fits beats = true
  spacing : IsReadable document.settings.spacing
  scale : IsReadable document.settings.scale

/-- What becomes of a document that is stored: it has at least one block, and a
tempo. -/
def restored (document : Document) : Document :=
  { document with
    blocks := if document.blocks.isEmpty then [{}] else document.blocks
    tempo := if document.tempo.isZero then 60 else document.tempo }

end Document

/-- A document on the shelf, with its owner and the time of its first save. -/
structure Entry where
  owner : String
  created : String
  document : Document

/-- Documents by their numbers, and the numbers that were ever given. -/
structure Shelf where
  get? : Int → Option Entry
  used : Int → Prop

namespace Entry

/-- True of an entry that an owner saves a document over. -/
def IsNamed (entry : Entry) (owner : String) (document : Document) : Prop :=
  entry.owner = owner ∧ entry.document.title = document.title ∧
    entry.document.album = document.album

def record (entry : Entry) (id : Int) : Record where
  id := id
  title := entry.document.title
  album := entry.document.album
  content := entry.document.stored
  keyIndex := entry.document.keyIndex
  tempo := entry.document.tempo
  owner := some entry.owner
  created := entry.created

def draft (entry : Entry) : Store.Draft where
  title := entry.document.title
  album := entry.document.album
  content := entry.document.stored
  keyIndex := entry.document.keyIndex
  tempo := entry.document.tempo
  owner := entry.owner
  created := entry.created

theorem passes_draft (entry : Entry) (fits : entry.document.Fits)
    (writable : IsWritable entry.document.title ∧ IsWritable entry.document.album ∧
      IsWritable entry.owner ∧ IsWritable entry.document.stored) (timed : IsWritable entry.created) :
    ∀ value ∈ entry.draft.values, Store.refusal? value = none := by
  obtain ⟨titled, inAlbum, owned, stored⟩ := writable
  obtain ⟨index, whole, fitsKey⟩ := fits.keyIndex
  obtain ⟨beats, steady, fitsTempo⟩ := fits.tempo
  simp only [Store.Draft.values, draft, whole, steady, List.forall_mem_cons, Store.refusal?_text]
  exact ⟨titled, inAlbum, stored, Store.refusal?_whole fitsKey, Store.refusal?_whole fitsTempo,
    owned, timed, by simp⟩

theorem record_draft {entry : Entry} (fits : entry.document.Fits) (id : Int) :
    entry.draft.record id = .ok (entry.record id) := by
  obtain ⟨index, whole, -⟩ := fits.keyIndex
  obtain ⟨beats, steady, -⟩ := fits.tempo
  simp only [Store.Draft.record, draft, record, Datum.words?, whole, steady, Datum.counted]

theorem decode?_record {entry : Entry} (fits : entry.document.Fits) (reach : Envelope.Reach)
    (id : Int) :
    Envelope.decode? reach (entry.record id).content = some
      { blocks := entry.document.restored.blocks, settings := entry.document.settings } := by
  have none : ∀ amount ∈ (none : Option Amount), IsReadable amount := by simp
  have read : Envelope.decode? reach entry.document.stored = some _ :=
    Envelope.decode?_encode_of_known fits.kinds fits.spacing fits.scale none none reach
  rw [record, read]
  dsimp only [Document.restored]
  split <;> rfl

theorem documentOf_record {entry : Entry} (fits : entry.document.Fits) (id : Int) :
    (entry.record id).documentOf
        { blocks := entry.document.restored.blocks, settings := entry.document.settings } =
      .ok entry.document.restored := by
  obtain ⟨index, whole, -⟩ := fits.keyIndex
  obtain ⟨beats, steady, -⟩ := fits.tempo
  have keyIndex : Record.orStandard Key.defaultIndex (.number entry.document.keyIndex) =
      .number entry.document.keyIndex := by
    rw [whole]
    simp only [Record.orStandard]
    split
    · rename_i zero
      obtain rfl : index = 0 := by simpa [Amount.isZero] using zero
      rfl
    · rfl
  simp only [Record.documentOf, record, keyIndex]
  rfl

end Entry

namespace Shelf

def empty : Shelf where
  get? _ := none
  used _ := False

def put (shelf : Shelf) (id : Int) (entry : Entry) : Shelf where
  get? := Function.update shelf.get? id (some entry)
  used other := other = id ∨ shelf.used other

def remove (shelf : Shelf) (id : Int) : Shelf :=
  { shelf with get? := Function.update shelf.get? id none }

/-- The owner has no document of the title and album. -/
def Lacks (shelf : Shelf) (owner : String) (document : Document) : Prop :=
  ∀ id entry, shelf.get? id = some entry → ¬entry.IsNamed owner document

/-- No number is left: the highest one of 64 bits has been given. -/
def IsFull (shelf : Shelf) : Prop :=
  shelf.used (Datum.wholeLimit - 1)

/-! Shelves on which every document has a name of its own -/

/-- A shelf with one document for an owner, a title and an album, and no number
that was never given. -/
structure IsSound (shelf : Shelf) : Prop where
  unique : ∀ id other entry another, shelf.get? id = some entry →
    shelf.get? other = some another → entry.IsNamed another.owner another.document → id = other
  fits : ∀ id entry, shelf.get? id = some entry → entry.document.Fits
  used : ∀ id entry, shelf.get? id = some entry → shelf.used id

theorem isSound_empty : empty.IsSound where
  unique _ _ _ _ present := by cases present
  fits _ _ present := by cases present
  used _ _ present := by cases present

theorem get?_put {shelf : Shelf} {id other : Int} {entry another : Entry} :
    (shelf.put id entry).get? other = some another ↔
      other = id ∧ another = entry ∨ other ≠ id ∧ shelf.get? other = some another := by
  by_cases same : other = id
  · simp [put, same, eq_comm]
  · simp [put, same]

theorem get?_remove {shelf : Shelf} {id other : Int} {another : Entry} :
    (shelf.remove id).get? other = some another ↔
      other ≠ id ∧ shelf.get? other = some another := by
  by_cases same : other = id
  · simp [remove, same]
  · simp [remove, same]

theorem IsSound.put {shelf : Shelf} {id : Int} {entry : Entry} (sound : shelf.IsSound)
    (fits : entry.document.Fits)
    (alone : ∀ other another, other ≠ id → shelf.get? other = some another →
      ¬another.IsNamed entry.owner entry.document) : (shelf.put id entry).IsSound where
  unique first second one two presentOne presentTwo named := by
    rcases get?_put.mp presentOne with ⟨rfl, rfl⟩ | ⟨elsewhere, keptOne⟩
    · rcases get?_put.mp presentTwo with ⟨rfl, rfl⟩ | ⟨elsewhere, keptTwo⟩
      · rfl
      · obtain ⟨owner, title, album⟩ := named
        exact absurd ⟨owner.symm, title.symm, album.symm⟩ (alone second two elsewhere keptTwo)
    · rcases get?_put.mp presentTwo with ⟨rfl, rfl⟩ | ⟨_, keptTwo⟩
      · exact absurd named (alone first one elsewhere keptOne)
      · exact sound.unique first second one two keptOne keptTwo named
  fits other another present := by
    rcases get?_put.mp present with ⟨rfl, rfl⟩ | ⟨_, present⟩
    · exact fits
    · exact sound.fits other another present
  used other another present := by
    rcases get?_put.mp present with ⟨same, -⟩ | ⟨_, present⟩
    · exact .inl same
    · exact .inr (sound.used other another present)

theorem IsSound.remove {shelf : Shelf} (sound : shelf.IsSound) (id : Int) :
    (shelf.remove id).IsSound where
  unique first second one two presentOne presentTwo :=
    sound.unique first second one two (get?_remove.mp presentOne).2 (get?_remove.mp presentTwo).2
  fits other another present := sound.fits other another (get?_remove.mp present).2
  used other another present := sound.used other another (get?_remove.mp present).2

/-! The table of a shelf -/

/-- A table that holds the records of a shelf, each once. -/
structure Keeps (table : MelodyTable) (shelf : Shelf) : Prop where
  distinct : (table.records.map (·.id)).Nodup
  records : ∀ record, record ∈ table.records ↔
    ∃ entry, shelf.get? record.id = some entry ∧ record = entry.record record.id
  sound : shelf.IsSound
  given : ∀ id, shelf.used id → 0 < id ∧ id ≤ table.lastId
  last : 0 ≤ table.lastId ∧ table.lastId < Datum.wholeLimit ∧
    (table.lastId = 0 ∨ shelf.used table.lastId)

namespace Keeps

variable {table : MelodyTable} {shelf : Shelf} (keeps : Keeps table shelf)

include keeps

theorem find?_numbered (id : Int) :
    (table.records.find? fun record => Store.isNumbered record (Amount.whole id)) =
      (shelf.get? id).map (·.record id) := by
  cases found : table.records.find? fun record => Store.isNumbered record (Amount.whole id) with
  | some record =>
      have holds := List.find?_some found
      have numbered := (Store.isNumbered_whole record id).mp holds
      obtain ⟨entry, present, same⟩ :=
        (keeps.records record).mp (List.mem_of_find?_eq_some found)
      rw [numbered] at present same
      rw [present, same]
      rfl
  | none =>
      cases present : shelf.get? id with
      | none => rfl
      | some entry =>
          have member := (keeps.records (entry.record id)).mpr ⟨entry, present, rfl⟩
          have missed := List.find?_eq_none.mp found _ member
          exact absurd ((Store.isNumbered_whole _ id).mpr rfl) missed

theorem find?_named (owner : String) (document : Document) :
    ((table.records.find? fun record =>
        Store.isNamed record document.title document.album owner) = none ∧
      shelf.Lacks owner document) ∨
    ∃ id entry, (table.records.find? fun record =>
        Store.isNamed record document.title document.album owner) = some (entry.record id) ∧
      shelf.get? id = some entry ∧ entry.IsNamed owner document := by
  cases found : table.records.find? fun record =>
      Store.isNamed record document.title document.album owner with
  | some record =>
      have holds := List.find?_some found
      obtain ⟨title, album, owned⟩ := (Store.isNamed_text record _ _ _).mp holds
      obtain ⟨entry, present, same⟩ :=
        (keeps.records record).mp (List.mem_of_find?_eq_some found)
      refine .inr ⟨record.id, entry, by rw [← same], present, ?_⟩
      rw [same] at title album owned
      exact ⟨Option.some.inj owned, title, album⟩
  | none =>
      refine .inl ⟨rfl, ?_⟩
      rintro id entry present ⟨owned, title, album⟩
      have member := (keeps.records (entry.record id)).mpr ⟨entry, present, rfl⟩
      have missed := List.find?_eq_none.mp found _ member
      exact missed ((Store.isNamed_text _ _ _ _).mpr ⟨title, album, congrArg some owned⟩)

theorem inserted {id : Int} {entry : Entry} (next : id = table.lastId + 1)
    (fitting : Datum.fits id = true) (lacks : shelf.Lacks entry.owner entry.document)
    (fits : entry.document.Fits) :
    Keeps ⟨Store.including (entry.record id) table.records, max table.lastId id⟩
      (shelf.put id entry) := by
  -- The number is above all that were ever given, so the record comes last.
  have highest : ∀ record ∈ table.records, record.id < (entry.record id).id := by
    intro record member
    obtain ⟨another, present, -⟩ := (keeps.records record).mp member
    have bound := (keeps.given record.id (keeps.sound.used record.id another present)).2
    have itself : (entry.record id).id = id := rfl
    omega
  have top : max table.lastId id = id := by omega
  rw [Store.including_last highest, top]
  constructor
  · rw [List.map_append, List.nodup_append]
    refine ⟨keeps.distinct, List.nodup_cons.mpr ⟨by simp, List.nodup_nil⟩, ?_⟩
    intro other member same among
    obtain ⟨record, inTable, rfl⟩ := List.mem_map.mp member
    have before := highest record inTable
    simp only [List.map_cons, List.map_nil, List.mem_singleton] at among
    omega
  · intro record
    simp only [List.mem_append, List.mem_singleton, Shelf.get?_put]
    constructor
    · rintro (member | rfl)
      · obtain ⟨another, present, same⟩ := (keeps.records record).mp member
        have elsewhere : record.id ≠ id := Int.ne_of_lt (highest record member)
        exact ⟨another, .inr ⟨elsewhere, present⟩, same⟩
      · exact ⟨entry, .inl ⟨rfl, rfl⟩, rfl⟩
    · rintro ⟨another, ⟨here, rfl⟩ | ⟨-, present⟩, same⟩
      · rw [here] at same
        exact .inr same
      · exact .inl ((keeps.records record).mpr ⟨another, present, same⟩)
  · exact keeps.sound.put fits fun other another _ present => lacks other another present
  · rintro other (rfl | used)
    · have fromStart := keeps.last.1
      exact ⟨by omega, Int.le_refl _⟩
    · obtain ⟨positive, bound⟩ := keeps.given other used
      exact ⟨positive, show other ≤ id by omega⟩
  · have bounds := keeps.last
    simp only [Datum.fits, Bool.and_eq_true, decide_eq_true_eq] at fitting
    exact ⟨by show 0 ≤ id; omega, fitting.2, .inr (.inl rfl)⟩

theorem inserted_draft {entry : Entry} (fits : entry.document.Fits)
    (fitting : Datum.fits (table.lastId + 1) = true) :
    Store.inserted entry.draft table =
      .ok (table.lastId + 1, ⟨Store.including (entry.record (table.lastId + 1)) table.records,
        max table.lastId (table.lastId + 1)⟩) := by
  have fresh : (table.records.any fun other => other.id == table.lastId + 1) = false := by
    rw [List.any_eq_false]
    intro record member taken
    obtain ⟨another, present, -⟩ := (keeps.records record).mp member
    have bound := (keeps.given record.id (keeps.sound.used record.id another present)).2
    rw [beq_iff_eq] at taken
    omega
  have number : Store.numberFor table entry.draft.id = .ok (table.lastId + 1) := by
    simp only [Store.numberFor, Entry.draft, Datum.counted, fitting, ↓reduceIte]
  simp only [Store.inserted, number, Entry.record_draft fits, bind, Except.bind, fresh]
  rfl

/-- The table after an update, as it is when a record with the number is there. -/
theorem replaced {id : Int} {entry : Entry} {document : Document}
    (present : shelf.get? id = some entry) (named : entry.IsNamed entry.owner document)
    (fits : document.Fits) :
    Keeps { table with
        records := table.records.map fun record =>
          if record.id = id then { entry with document }.record id else record }
      (shelf.put id { entry with document }) := by
  constructor
  · have same : (table.records.map fun record =>
        if record.id = id then { entry with document }.record id else record).map (·.id) =
        table.records.map (·.id) := by
      rw [List.map_map]
      apply List.map_congr_left
      intro record _
      dsimp only [Function.comp_apply]
      split
      · rename_i here
        exact here.symm
      · rfl
    rw [same]
    exact keeps.distinct
  · intro record
    simp only [List.mem_map, Shelf.get?_put]
    constructor
    · rintro ⟨before, member, rfl⟩
      obtain ⟨another, found, same⟩ := (keeps.records before).mp member
      split
      · exact ⟨_, .inl ⟨rfl, rfl⟩, rfl⟩
      · rename_i elsewhere
        exact ⟨another, .inr ⟨elsewhere, found⟩, same⟩
    · rintro ⟨another, ⟨here, rfl⟩ | ⟨elsewhere, found⟩, same⟩
      · refine ⟨entry.record id, (keeps.records _).mpr ⟨entry, present, rfl⟩, ?_⟩
        rw [here] at same
        rw [same]
        exact if_pos rfl
      · exact ⟨record, (keeps.records record).mpr ⟨another, found, same⟩, if_neg elsewhere⟩
  · apply keeps.sound.put fits
    rintro other another elsewhere found ⟨owner, title, album⟩
    obtain ⟨-, sameTitle, sameAlbum⟩ := named
    exact elsewhere (keeps.sound.unique other id another entry found present
      ⟨owner, title.trans sameTitle.symm, album.trans sameAlbum.symm⟩)
  · rintro other (rfl | used)
    · exact keeps.given other (keeps.sound.used other entry present)
    · exact keeps.given other used
  · obtain ⟨fromStart, below, last⟩ := keeps.last
    exact ⟨fromStart, below, last.imp_right .inr⟩

theorem deleted (id : Int) :
    Keeps { table with records := table.records.filter fun record =>
        !Store.isNumbered record (Amount.whole id) } (shelf.remove id) := by
  have other : ∀ record : Record,
      (!Store.isNumbered record (Amount.whole id)) = true ↔ record.id ≠ id := by
    intro record
    rw [Bool.not_eq_true', ← Bool.not_eq_true, Store.isNumbered_whole]
  constructor
  · exact keeps.distinct.sublist (List.filter_sublist.map _)
  · intro record
    simp only [List.mem_filter, other, keeps.records record, Shelf.get?_remove]
    constructor
    · rintro ⟨⟨entry, present, same⟩, elsewhere⟩
      exact ⟨entry, ⟨elsewhere, present⟩, same⟩
    · rintro ⟨entry, ⟨elsewhere, present⟩, same⟩
      exact ⟨⟨entry, present, same⟩, elsewhere⟩
  · exact keeps.sound.remove id
  · exact keeps.given
  · exact keeps.last

end Keeps

/-! A store that holds a shelf -/

/-- A store whose table is that of a shelf. -/
def HeldBy (shelf : Shelf) (store : Store) : Prop :=
  ∃ table, store.Serves table ∧ Keeps table shelf

namespace HeldBy

variable {shelf : Shelf} {store : Store} (held : HeldBy shelf store)

include held

theorem get {id : Int} (fits : Datum.fits id = true) :
    (store.get (Amount.whole id)).1 = .ok ((shelf.get? id).map (·.record id)) ∧
      HeldBy shelf (store.get (Amount.whole id)).2 := by
  obtain ⟨table, serves, keeps⟩ := held
  obtain ⟨answered, after⟩ := serves.get fits
  rw [keeps.find?_numbered] at answered
  exact ⟨answered, table, after, keeps⟩

theorem findId {owner : String} {document : Document}
    (writable : IsWritable document.title ∧ IsWritable document.album ∧ IsWritable owner) :
    HeldBy shelf (store.findId document.title document.album owner).2 ∧
      ((store.findId document.title document.album owner).1 = .ok none ∧
          shelf.Lacks owner document ∨
        ∃ id entry, (store.findId document.title document.album owner).1 = .ok (some id) ∧
          shelf.get? id = some entry ∧ entry.IsNamed owner document) := by
  obtain ⟨table, serves, keeps⟩ := held
  obtain ⟨answered, after⟩ := serves.findId writable
  refine ⟨⟨table, after, keeps⟩, ?_⟩
  rcases keeps.find?_named owner document with ⟨missed, lacks⟩ | ⟨id, entry, found, present, named⟩
  · rw [missed] at answered
    exact .inl ⟨answered, lacks⟩
  · rw [found] at answered
    exact .inr ⟨id, entry, answered, present, named⟩

theorem findId_unwritable {owner : String} {document : Document}
    (unwritable : ¬(IsWritable document.title ∧ IsWritable document.album ∧ IsWritable owner)) :
    ∃ told, (store.findId document.title document.album owner).1 = .error told ∧
      HeldBy shelf (store.findId document.title document.album owner).2 := by
  obtain ⟨table, serves, keeps⟩ := held
  obtain ⟨told, answered, after⟩ := serves.findId_unwritable unwritable
  exact ⟨told, answered, table, after, keeps⟩

theorem insert {entry : Entry} (fits : entry.document.Fits)
    (lacks : shelf.Lacks entry.owner entry.document)
    (passes : ∀ value ∈ entry.draft.values, Store.refusal? value = none) :
    (∃ id, (store.insert entry.draft).1 = .ok id ∧ ¬shelf.used id ∧
        HeldBy (shelf.put id entry) (store.insert entry.draft).2) ∨
      (store.insert entry.draft).1 = .error (.query .full) ∧ shelf.IsFull ∧
        HeldBy shelf (store.insert entry.draft).2 := by
  obtain ⟨table, serves, keeps⟩ := held
  cases fitting : Datum.fits (table.lastId + 1) with
  | true =>
      have runs := keeps.inserted_draft fits fitting
      obtain ⟨answered, after⟩ := serves.insert passes runs
      refine .inl ⟨table.lastId + 1, answered, ?_, _, after,
        keeps.inserted rfl fitting lacks fits⟩
      intro used
      have bound := (keeps.given _ used).2
      omega
  | false =>
      have refused : Store.inserted entry.draft table = .error .full := by
        simp only [Store.inserted, Entry.draft, Store.numberFor, Datum.counted, fitting]
        rfl
      obtain ⟨answered, after⟩ := serves.insert_refused passes refused
      refine .inr ⟨answered, ?_, table, after, keeps⟩
      obtain ⟨fromStart, below, last⟩ := keeps.last
      have highest : table.lastId = Datum.wholeLimit - 1 := by
        simp only [Datum.fits, Bool.and_eq_false_iff, decide_eq_false_iff_not] at fitting
        have positive : 0 < Datum.wholeLimit := by decide
        omega
      rcases last with none | used
      · rw [none] at highest
        exact absurd highest (by decide)
      · rw [highest] at used
        exact used

theorem insert_unwritable (entry : Entry) (unwritable : ¬IsWritable entry.document.stored) :
    ∃ told, (store.insert entry.draft).1 = .error told ∧
      HeldBy shelf (store.insert entry.draft).2 := by
  obtain ⟨table, serves, keeps⟩ := held
  have member : Datum.text entry.document.stored ∈ entry.draft.values := by
    simp [Store.Draft.values, Entry.draft]
  have refused : Store.refusal? (Datum.text entry.document.stored) ≠ none := by
    intro passes
    exact unwritable (Store.refusal?_text.mp passes)
  obtain ⟨told, answered, after⟩ := serves.insert_mispassed member refused
  exact ⟨told, answered, table, after, keeps⟩

theorem update {id : Int} {entry : Entry} {document : Document}
    (present : shelf.get? id = some entry) (named : entry.IsNamed entry.owner document)
    (fits : document.Fits) (writable : IsWritable document.stored) :
    (store.update (Amount.whole id) document.stored document.keyIndex document.tempo).1 = .ok () ∧
      HeldBy (shelf.put id { entry with document })
        (store.update (Amount.whole id) document.stored document.keyIndex document.tempo).2 := by
  obtain ⟨table, serves, keeps⟩ := held
  have member := (keeps.records (entry.record id)).mpr ⟨entry, present, rfl⟩
  obtain ⟨positive, bound⟩ := keeps.given id (keeps.sound.used id entry present)
  have fitsId : Datum.fits id = true := by
    have below := keeps.last.2.1
    simp only [Datum.fits, Bool.and_eq_true, decide_eq_true_eq]
    constructor
    · have opposite : -Datum.wholeLimit ≤ 0 := by decide
      omega
    · omega
  obtain ⟨index, whole, fitsKey⟩ := fits.keyIndex
  obtain ⟨beats, steady, fitsTempo⟩ := fits.tempo
  rw [whole, steady]
  obtain ⟨answered, after⟩ :=
    serves.update member rfl ⟨fitsId, fitsKey, fitsTempo⟩ writable
  refine ⟨answered, _, after, ?_⟩
  have changed := keeps.replaced present named fits
  -- An update leaves title, album, owner and time as they are, which the record of
  -- the changed entry has too, for the documents are named alike.
  have same : (table.records.map fun record =>
        if record.id = id then { entry with document }.record id else record) =
      table.records.map fun record =>
        if record.id = id then
          { record with
            content := document.stored
            keyIndex := Amount.whole index
            tempo := Amount.whole beats }
        else record := by
    apply List.map_congr_left
    intro record inTable
    split
    · rename_i here
      obtain ⟨another, found, same⟩ := (keeps.records record).mp inTable
      rw [here] at found same
      obtain rfl := Option.some.inj (found.symm.trans present)
      obtain ⟨-, title, album⟩ := named
      rw [same]
      simp only [Entry.record, title, album, whole, steady]
    · rfl
  rw [same] at changed
  exact changed

theorem update_unwritable (id : Int) {document : Document}
    (unwritable : ¬IsWritable document.stored) :
    ∃ told, (store.update (Amount.whole id) document.stored document.keyIndex document.tempo).1 =
        .error told ∧
      HeldBy shelf
        (store.update (Amount.whole id) document.stored document.keyIndex document.tempo).2 := by
  obtain ⟨table, serves, keeps⟩ := held
  obtain ⟨told, answered, after⟩ := serves.update_unwritable unwritable
  exact ⟨told, answered, table, after, keeps⟩

theorem delete {id : Int} (fits : Datum.fits id = true) :
    (store.delete (Amount.whole id)).1 = .ok () ∧
      HeldBy (shelf.remove id) (store.delete (Amount.whole id)).2 := by
  obtain ⟨table, serves, keeps⟩ := held
  obtain ⟨answered, after⟩ := serves.delete fits
  exact ⟨answered, _, after, keeps.deleted id⟩

end HeldBy

end Shelf

end Jianpu
