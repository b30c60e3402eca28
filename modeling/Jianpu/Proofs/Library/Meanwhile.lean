import Jianpu.Proofs.Library.Requests

/-! Saves during which others use the database. Between the search for a record to
write over and the writing stands a question, and whatever is asked of the database
until it is answered is done. A number that is reported stands for the saved document
unless its record has been deleted by then. -/

set_option autoImplicit false

namespace Jianpu

open Json (IsShortIfWhole)
open Number (Amount)

namespace Document

/-- A document with blocks of the two kinds, a whole key and tempo, and settings
whose numerals can be read. -/
structure IsWellFormed (document : Document) : Prop where
  kinds : ∀ block ∈ document.blocks, block.kind = .melody ∨ block.kind = .chords
  keyIndex : ∃ index : Int, document.keyIndex = .whole index
  tempo : ∃ beats : Int, document.tempo = .whole beats
  spacing : IsShortIfWhole document.settings.spacing
  scale : IsShortIfWhole document.settings.scale

/-- A stored document as it is read: what becomes of it, with its settings as their
texts are read. -/
def reloaded (document : Document) : Document :=
  { document.restored with
    settings := ⟨Json.reread document.settings.spacing, Json.reread document.settings.scale⟩ }

theorem reloaded_of_readable {document : Document}
    (spacing : Json.IsReadable document.settings.spacing)
    (scale : Json.IsReadable document.settings.scale) : document.reloaded = document.restored := by
  rw [reloaded, Json.reread_of_readable spacing, Json.reread_of_readable scale]
  rfl

end Document

namespace Library

variable {ε : Type} {library : Library} {now : String} {document : Document}
  {meanwhile : List Store.Visit} {answer : Except ε Bool}

/-- An answer, with what is asked of the database until it comes. -/
def answering (meanwhile : List Store.Visit) (answer : Except ε Bool) : Confirmation ε :=
  fun _ library => (answer, { library with store := library.store.visited meanwhile })

/-! Saves that ask -/

def search (library : Library) (document : Document) : Store.Outcome (Option Int) :=
  library.store.findId document.title document.album library.owner

/-- The numbers of the owner's records with the title and album of a document. -/
def namesakes (library : Library) (document : Document) (table : MelodyTable) : List Int :=
  table.namesakes document.title document.album library.owner

/-- A save that gives a number has added a record, or has written over the one that
it had found before it asked. -/
theorem save_eq_ok {id : Int} {after : Library}
    (saves : library.save now (answering meanwhile answer) document = (.ok (some id), after)) :
    (∃ found, library.search document = (.ok none, found) ∧
      found.insert (library.draftOf now document document.stored) = (.ok id, after.store)) ∨
    ∃ found, library.search document = (.ok (some id), found) ∧
      (found.visited meanwhile).update (Amount.whole id) document.stored document.keyIndex
        document.tempo = (.ok (), after.store) := by
  unfold save at saves
  split at saves
  · cases saves
  split at saves
  · cases saves
  unfold write keep at saves
  rcases searched : library.store.findId document.title document.album library.owner with
    ⟨number, found⟩
  simp only [searched] at saves
  cases number with
  | error error => cases saves
  | ok number =>
      cases number with
      | none =>
          rcases inserted : found.insert (library.draftOf now document document.stored) with
            ⟨given, last⟩
          unfold Document.stored draftOf at inserted
          simp only [draftOf, inserted] at saves
          cases given with
          | error error => cases saves
          | ok id =>
              cases saves
              exact .inl ⟨found, searched, inserted⟩
      | some other =>
          simp only [overwrite, answering, keep] at saves
          rcases answer with reason | agreed
          · cases saves
          cases agreed with
          | false => cases saves
          | true =>
              rcases updated : (found.visited meanwhile).update (Amount.whole other)
                document.stored document.keyIndex document.tempo with ⟨given, last⟩
              unfold Document.stored at updated
              simp only [updated] at saves
              cases given with
              | error error => cases saves
              | ok done =>
                  cases saves
                  exact .inr ⟨found, searched, updated⟩

theorem search_eq_ok {number : Option Int} {found : Store} {table : MelodyTable}
    (searched : library.search document = (.ok number, found))
    (holds : library.store.Holds table) :
    found.Holds table ∧ number = (library.namesakes document table).head? := by
  obtain ⟨same, changed, held, runs, left, begun, -⟩ := Store.query_eq_ok searched
  cases held.symm.trans holds.database
  obtain ⟨rfl, rfl⟩ := Prod.mk.inj (Except.ok.inj runs)
  refine ⟨⟨left, by simp [begun]⟩, ?_⟩
  rw [namesakes, MelodyTable.namesakes, List.head?_map, List.head?_filter]

/-! Loading -/

/-- A record that a document has been written to. -/
structure Stores (document : Document) (record : Record) : Prop where
  title : record.title = document.title
  album : record.album = document.album
  content : record.content = document.stored
  keyIndex : record.keyIndex = (Datum.number document.keyIndex).counted
  tempo : record.tempo = (Datum.number document.tempo).counted

namespace Stores

variable {record : Record} (stores : Stores document record)
  (wellFormed : document.IsWellFormed)

include stores wellFormed

theorem decode? (reach : Envelope.Reach) : Envelope.decode? reach record.content = some
    { blocks := document.reloaded.blocks, settings := document.reloaded.settings } := by
  have none : ∀ amount ∈ (none : Option Amount), Json.IsReadable amount := by simp
  have read : Envelope.decode? reach document.stored = some _ :=
    Envelope.decode?_encode_of_short wellFormed.kinds none none wellFormed.spacing
      wellFormed.scale reach
  rw [stores.content, read]
  dsimp only [Document.reloaded, Document.restored, Envelope.reread]
  split <;> rfl

theorem documentOf : record.documentOf
      { blocks := document.reloaded.blocks, settings := document.reloaded.settings } =
    .ok document.reloaded := by
  obtain ⟨index, whole⟩ := wellFormed.keyIndex
  obtain ⟨beats, steady⟩ := wellFormed.tempo
  have keyIndex : Record.orStandard Key.defaultIndex record.keyIndex =
      .number document.keyIndex := by
    rw [stores.keyIndex, whole]
    simp only [Datum.counted, Record.orStandard]
    split
    · rename_i zero
      obtain rfl : index = 0 := by simpa [Amount.isZero] using zero
      rfl
    · rfl
  have tempo : record.tempo = .number document.tempo := by
    rw [stores.tempo, steady]
    rfl
  simp only [Record.documentOf, keyIndex, tempo, stores.title, stores.album]
  rfl

end Stores

section Load

variable {table : MelodyTable} (holds : library.store.Holds table)
  (isOpen : library.store.isOpen = true) {id : Int} (fits : Datum.fits id = true)
  (reach : Envelope.Reach)

include holds isOpen fits

theorem load_of_missing (missing : ∀ record ∈ table.records, record.id ≠ id) :
    (library.load reach id).1 = .error (.unknown id) := by
  have found : (table.records.find? fun record => Store.isNumbered record (Amount.whole id)) =
      none := by
    rw [List.find?_eq_none]
    intro record member numbered
    exact missing record member ((Store.isNumbered_whole record id).mp numbered)
  unfold load keep
  rw [holds.get isOpen fits, found]

theorem load_of_record (numbered : table.IsNumbered) (wellFormed : document.IsWellFormed)
    {record : Record} (stores : Stores document record) (member : record ∈ table.records)
    (here : record.id = id) : (library.load reach id).1 = .ok document.reloaded := by
  subst here
  have found := holds.get isOpen fits
  rw [numbered.find? member] at found
  unfold load keep
  rw [found]
  simp only [stores.decode? wellFormed, stores.documentOf wellFormed]
  rfl

end Load

/-! Writing -/

/-- A document that has been added stands under its number, behind its namesakes. -/
theorem stored_of_inserted {found left : Store} {before : MelodyTable} {id : Int}
    (holds : found.Holds before) (numbered : before.IsNumbered)
    (inserted : found.insert (library.draftOf now document document.stored) = (.ok id, left)) :
    ∃ changed, left.Holds changed ∧ left.isOpen = true ∧ changed.IsNumbered ∧
      Datum.fits id = true ∧
      (∃ record ∈ changed.records, record.id = id ∧ Stores document record) ∧
      library.namesakes document changed = library.namesakes document before ++ [id] := by
  obtain ⟨same, changed, held, runs, database, begun, isOpen⟩ := Store.query_eq_ok inserted
  cases held.symm.trans holds.database
  obtain ⟨rfl, fits, record, made, rfl⟩ := Store.inserted_next rfl runs
  have last := numbered.including_next made
  obtain rfl := Except.ok.inj made
  refine ⟨_, ⟨database, by simp [begun]⟩, isOpen, numbered.added made fits, fits, ?_, ?_⟩
  · exact ⟨_, Store.mem_including .., rfl, rfl, rfl, rfl, rfl, rfl⟩
  · rw [last]
    exact before.namesakes_append ((Store.isNamed_text _ _ _ _).mpr ⟨rfl, rfl, rfl⟩) _

/-- A document that has been written over a record stands there if the record does,
and no record has another name than before. -/
theorem stored_of_updated {found left : Store} {answered : MelodyTable} {id : Int}
    (holds : found.Holds answered) (numbered : answered.IsNumbered)
    (updated : found.update (Amount.whole id) document.stored document.keyIndex document.tempo =
      (.ok (), left)) :
    ∃ changed, left.Holds changed ∧ left.isOpen = true ∧ changed.IsNumbered ∧
      changed.records.map (·.id) = answered.records.map (·.id) ∧
      (∀ record ∈ answered.records, record.id = id → record.title = document.title →
        record.album = document.album →
        ∃ written ∈ changed.records, written.id = id ∧ Stores document written) ∧
      library.namesakes document changed = library.namesakes document answered := by
  obtain ⟨same, held, isOpen, after⟩ := Store.update_eq_ok updated
  cases held.symm.trans holds.database
  refine ⟨_, after, isOpen, numbered.rewritten .., answered.ids_rewritten .., ?_,
    answered.namesakes_rewritten ..⟩
  intro record member here title album
  refine ⟨_, List.mem_map_of_mem member, ?_⟩
  rw [Store.rewritten, if_pos ((Store.isNumbered_whole record id).mpr here)]
  exact ⟨here, title, album, rfl, rfl, rfl⟩

/-- What a save that gives a number leaves behind, whatever has been asked of the
database while it asked: a document that was not there is stored, as the only one of
its name. One that was there is written over, and read back under the number that is
given, if its record still stands when the answer comes, and else nothing is stored;
the records of its name are those that there were then. So the document is stored if
nobody has deleted its record, and has its name alone if it had it before and nobody
has added another of the name. -/
theorem reported_save_is_stored (reachable : library.store.IsReachable)
    (wellFormed : document.IsWellFormed) (reach : Envelope.Reach) {id : Int} {after : Library}
    (saves : library.save now (answering meanwhile answer) document = (.ok (some id), after)) :
    ∃ before answered changed : MelodyTable,
      library.store.database = .melodies before ∧
      ((library.search document).2.visited meanwhile).database = .melodies answered ∧
      after.store.database = .melodies changed ∧
      (library.namesakes document before = [] →
        (after.load reach id).1 = .ok document.reloaded ∧
          library.namesakes document changed = [id]) ∧
      (library.namesakes document before ≠ [] →
        ((∃ record ∈ answered.records, record.id = id) →
          (after.load reach id).1 = .ok document.reloaded) ∧
        ((∀ record ∈ answered.records, record.id ≠ id) →
          (after.load reach id).1 = .error (.unknown id)) ∧
        library.namesakes document changed = library.namesakes document answered) ∧
      ((∀ visit ∈ meanwhile, ¬visit.request.Deletes id) →
        (after.load reach id).1 = .ok document.reloaded) ∧
      ((∀ visit ∈ meanwhile,
          ¬visit.request.Adds document.title document.album library.owner) →
        (library.namesakes document before).length ≤ 1 →
        (library.namesakes document changed).length ≤ 1) := by
  obtain ⟨before, holds, numbered⟩ := reachable.holds
  rcases save_eq_ok saves with ⟨found, searched, inserted⟩ | ⟨found, searched, updated⟩
  · obtain ⟨still, none⟩ := search_eq_ok searched holds
    have alone := List.head?_eq_none_iff.mp none.symm
    obtain ⟨answered, shown, -⟩ := Store.visited_keeps meanwhile still numbered
    obtain ⟨changed, left, isOpen, numberedAfter, fits, ⟨record, member, here, stores⟩, names⟩ :=
      stored_of_inserted still numbered inserted
    rw [alone, List.nil_append] at names
    have loads := load_of_record left isOpen fits reach numberedAfter wellFormed stores member here
    refine ⟨before, answered, changed, holds.database, ?_, left.database, ?_, ?_, ?_, ?_⟩
    · rw [searched]
      exact shown.database
    · exact fun _ => ⟨loads, names⟩
    · exact fun some => absurd alone some
    · exact fun _ => loads
    · intro _ _
      rw [names]
      exact Nat.le_refl 1
  · obtain ⟨still, first⟩ := search_eq_ok searched holds
    obtain ⟨original, present, rfl, title, album, -⟩ :=
      MelodyTable.mem_namesakes.mp (List.mem_of_head? first.symm)
    obtain ⟨answered, shown, numberedThen, continues, stands, fewer⟩ :=
      Store.visited_keeps meanwhile still numbered
    obtain ⟨changed, left, isOpen, numberedAfter, ids, written, names⟩ :=
      stored_of_updated shown numberedThen updated
    have fits := numbered.fits present
    have loads : (∃ record ∈ answered.records, record.id = original.id) →
        (after.load reach original.id).1 = .ok document.reloaded := by
      rintro ⟨record, member, here⟩
      -- The number was given by then, so the record is still of the name that was found.
      obtain ⟨earlier, before, same, sameTitle, sameAlbum, -⟩ :=
        continues.names record member (here ▸ (numbered.bounds original present).2)
      obtain rfl := numbered.eq_of_id before present (same.trans here)
      obtain ⟨stored, inTable, there, stores⟩ :=
        written record member here (sameTitle.symm.trans title) (sameAlbum.symm.trans album)
      exact load_of_record left isOpen fits reach numberedAfter wellFormed stores inTable there
    refine ⟨before, answered, changed, holds.database, ?_, left.database, ?_, ?_, ?_, ?_⟩
    · rw [searched]
      exact shown.database
    · intro alone
      rw [alone] at first
      cases first
    · refine fun _ => ⟨loads, fun missing => ?_, names⟩
      refine load_of_missing left isOpen fits reach fun record member here => ?_
      obtain ⟨other, among, same⟩ := List.mem_map.mp (ids ▸ List.mem_map_of_mem member)
      exact missing other among (same.trans here)
    · exact fun spares => loads (stands original.id spares ⟨original, present, rfl⟩)
    · intro spares few
      rw [names]
      exact Nat.le_trans (fewer _ _ _ spares).length_le few

/-- A library with one record, which has no blocks, key or tempo yet. -/
def withJasmine : Library where
  store := (Store.ofDatabase .blank).visited
    [.here (.insert
      { title := "Jasmine", album := "", content := "[]", keyIndex := .missing, tempo := .missing
        owner := "ada", created := "2024" })]
  owner := "ada"

theorem isReachable_withJasmine : withJasmine.store.IsReachable :=
  Store.isReachable_visited .opened _

set_option maxRecDepth 1500 in
/-- While a save asks, another document is saved in the place that it is to take. -/
theorem reported_save_is_stored_over_another :
    ∃ after, withJasmine.save "2025" (answering
        [.elsewhere (.update (Amount.whole 1) "[]" (Amount.whole 3) (Amount.whole 80))]
        (.ok true : Except Unit Bool)) { title := "Jasmine", tempo := 60 } = (.ok (some 1), after) ∧
      (after.load .usual 1).1 = .ok { title := "Jasmine", tempo := 60 } := by
  have readable : Json.IsReadable 20 := (by decide : Json.IsShort 20)
  have wellFormed : ({ title := "Jasmine", tempo := 60 } : Document).IsWellFormed :=
    ⟨by decide, ⟨0, rfl⟩, ⟨60, rfl⟩, Json.shortIfWhole_of_readable readable,
      Json.shortIfWhole_of_readable readable⟩
  have saves : withJasmine.save "2025" (answering
      [.elsewhere (.update (Amount.whole 1) "[]" (Amount.whole 3) (Amount.whole 80))]
      (.ok true : Except Unit Bool)) { title := "Jasmine", tempo := 60 } = (.ok (some 1), _) := rfl
  obtain ⟨before, answered, changed, -, -, -, -, -, loads, -⟩ :=
    reported_save_is_stored isReachable_withJasmine wellFormed .usual saves
  refine ⟨_, rfl, (loads ?_).trans ?_⟩
  · simp [Store.Visit.request, Store.Request.Deletes]
  · rw [Document.reloaded_of_readable readable readable]
    rfl

/-- While a save asks, the record is deleted. The save gives the number of what is
not there any more. -/
theorem reported_save_is_lost :
    let saved := withJasmine.save "2025" (answering [.elsewhere (.delete (Amount.whole 1))]
      (.ok true : Except Unit Bool)) { title := "Jasmine" }
    withJasmine.store.IsReachable ∧ saved.1 = .ok (some 1) ∧
      (saved.2.load .usual 1).1 = .error (.unknown 1) :=
  ⟨isReachable_withJasmine, rfl, rfl⟩

end Library

end Jianpu
