import Jianpu.Library.Store

/-! The store as a table of records. A query that goes through does to the table
what its statement says, and one that is refused or has a value that does not fit
leaves the table as it was, whatever transaction is open by then. -/

set_option autoImplicit false

namespace Jianpu

open Number (Amount)

/-- True of a text that has octets. -/
def IsWritable (words : String) : Prop :=
  Text.Utf8.encodingFault? words = none

instance (words : String) : Decidable (IsWritable words) :=
  inferInstanceAs (Decidable (_ = _))

namespace Store

theorem isNumbered_whole (record : Record) (id : Int) :
    isNumbered record (Amount.whole id) = true ↔ record.id = id := by
  have read : (Datum.number (Amount.whole id)).whole? = some id := rfl
  rw [isNumbered, read, beq_iff_eq, Option.some.injEq]
  exact eq_comm

theorem isNamed_text (record : Record) (title album owner : String) :
    isNamed record title album owner = true ↔
      record.title = title ∧ record.album = album ∧ record.owner = some owner := by
  simp only [isNamed, Datum.words?, Bool.and_eq_true, beq_iff_eq, Option.some.injEq]
  constructor
  · rintro ⟨⟨rfl, rfl⟩, owned⟩
    exact ⟨rfl, rfl, owned⟩
  · rintro ⟨rfl, rfl, owned⟩
    exact ⟨⟨rfl, rfl⟩, owned⟩

theorem including_last {record : Record} {records : List Record}
    (highest : ∀ other ∈ records, other.id < record.id) :
    including record records = records ++ [record] := by
  induction records with
  | nil => rfl
  | cons first rest ih =>
      have later : ¬record.id < first.id := by
        have before := highest first List.mem_cons_self
        omega
      rw [including, if_neg later,
        ih fun other member => highest other (List.mem_cons_of_mem first member)]
      rfl

theorem refusal?_text {words : String} :
    refusal? (Datum.text words) = none ↔ IsWritable words := by
  simp [refusal?, IsWritable]

theorem refusal?_whole {n : Int} (fits : Datum.fits n = true) :
    refusal? (Datum.number (Amount.whole n)) = none := by
  simp [refusal?, fits]

/-! Queries -/

/-- A store that is open for writing and shows a table, which an open transaction
has not changed. -/
structure Serves (store : Store) (table : MelodyTable) : Prop where
  isOpen : store.isOpen = true
  isWritable : store.isReadOnly = false
  database : store.database = .melodies table
  begun : ∀ before ∈ store.begun, before = .melodies table

namespace Serves

variable {store : Store} {table : MelodyTable} (serves : Serves store table)

include serves

theorem withStanding (standing : Option QueryFault) : Serves { store with standing } table :=
  ⟨serves.isOpen, serves.isWritable, serves.database, serves.begun⟩

theorem commit (changed : MelodyTable) : Serves (store.commit (.melodies changed)) changed :=
  ⟨serves.isOpen, serves.isWritable, rfl, by simp [Store.commit]⟩

theorem rollback : Serves store.rollback table := by
  unfold Store.rollback
  cases begun : store.begun with
  | none => exact serves
  | some before =>
      exact ⟨serves.isOpen, serves.isWritable, serves.begun before begun, by simp⟩

theorem begin : Serves store.begin table := by
  unfold Store.begin
  cases begun : store.begun with
  | some before => exact serves
  | none =>
      refine ⟨serves.isOpen, serves.isWritable, serves.database, ?_⟩
      simpa using serves.database

theorem refuse {α : Type} (fault : QueryFault) :
    (store.refuse fault : Outcome α).1 = .error (.query fault) ∧
      Serves (store.refuse fault : Outcome α).2 table :=
  ⟨rfl, serves.rollback.withStanding _⟩

theorem prepare (statement : Statement) :
    ∃ ready, store.prepare statement = .ok ready ∧ Serves ready table := by
  unfold Store.prepare
  rw [serves.database]
  split
  · exact ⟨store, rfl, serves⟩
  · exact ⟨_, rfl, serves.isOpen, serves.isWritable, rfl, serves.begun⟩

theorem mispass {α : Type} (values : List Datum) (error : StoreError) :
    ∃ told, (store.mispass values error : Outcome α).1 = .error told ∧
      Serves (store.mispass values error : Outcome α).2 table := by
  unfold Store.mispass
  split
  · exact ⟨_, serves.refuse _⟩
  · exact ⟨error, rfl, serves.withStanding none⟩

theorem execute {α : Type} (statement : Statement)
    (run : MelodyTable → Except QueryFault (α × MelodyTable)) :
    store.execute statement run = run table := by
  simp [Store.execute, serves.isWritable, serves.database]

theorem query_started {α : Type} (statement : Statement) (values : List Datum)
    (run : MelodyTable → Except QueryFault (α × MelodyTable)) :
    ∃ started, Serves started table ∧ store.query statement values run =
      match values.findSome? refusal? with
      | some error => started.mispass values error
      | none =>
        match run table with
        | .error fault => started.refuse fault
        | .ok (result, changed) => (.ok result, started.commit (.melodies changed)) := by
  obtain ⟨ready, prepared, servesReady⟩ := serves.prepare statement
  have servesStarted : Serves (if statement.changes then ready.begin else ready) table := by
    split
    · exact servesReady.begin
    · exact servesReady
  refine ⟨_, servesStarted, ?_⟩
  simp only [Store.query, serves.isOpen, prepared, servesStarted.execute]
  rfl

section Query

variable {α : Type} {statement : Statement} {values : List Datum}
  {run : MelodyTable → Except QueryFault (α × MelodyTable)}

theorem query_ok {result : α} {changed : MelodyTable}
    (passes : values.findSome? refusal? = none) (runs : run table = .ok (result, changed)) :
    (store.query statement values run).1 = .ok result ∧
      Serves (store.query statement values run).2 changed := by
  obtain ⟨started, servesStarted, query⟩ := serves.query_started statement values run
  rw [query, passes, runs]
  exact ⟨rfl, servesStarted.commit changed⟩

theorem query_error {fault : QueryFault} (passes : values.findSome? refusal? = none)
    (runs : run table = .error fault) :
    (store.query statement values run).1 = .error (.query fault) ∧
      Serves (store.query statement values run).2 table := by
  obtain ⟨started, servesStarted, query⟩ := serves.query_started statement values run
  rw [query, passes, runs]
  exact servesStarted.refuse fault

theorem query_mispassed (refused : (values.findSome? refusal?).isSome = true) :
    ∃ told, (store.query statement values run).1 = .error told ∧
      Serves (store.query statement values run).2 table := by
  obtain ⟨started, servesStarted, query⟩ := serves.query_started statement values run
  obtain ⟨error, found⟩ := Option.isSome_iff_exists.mp refused
  rw [query, found]
  exact servesStarted.mispass values error

end Query

/-! What each query answers, and the table after it -/

theorem get {id : Int} (fits : Datum.fits id = true) :
    (store.get (Amount.whole id)).1 =
        .ok (table.records.find? fun record => isNumbered record (Amount.whole id)) ∧
      Serves (store.get (Amount.whole id)).2 table := by
  apply serves.query_ok
  · simp [refusal?_whole fits]
  · rfl

theorem findId {title album owner : String}
    (writable : IsWritable title ∧ IsWritable album ∧ IsWritable owner) :
    (store.findId title album owner).1 =
        .ok ((table.records.find? fun record => isNamed record title album owner).map (·.id)) ∧
      Serves (store.findId title album owner).2 table := by
  obtain ⟨titled, inAlbum, owned⟩ := writable
  apply serves.query_ok
  · simp [refusal?_text.mpr titled, refusal?_text.mpr inAlbum, refusal?_text.mpr owned]
  · rfl

theorem findId_unwritable {title album owner : String}
    (unwritable : ¬(IsWritable title ∧ IsWritable album ∧ IsWritable owner)) :
    ∃ told, (store.findId title album owner).1 = .error told ∧
      Serves (store.findId title album owner).2 table := by
  apply serves.query_mispassed
  rw [Option.isSome_iff_ne_none]
  intro passes
  rw [List.findSome?_eq_none_iff] at passes
  exact unwritable ⟨refusal?_text.mp (passes title (by simp)),
    refusal?_text.mp (passes album (by simp)), refusal?_text.mp (passes owner (by simp))⟩

theorem insert {draft : Draft} (passes : ∀ value ∈ draft.values, refusal? value = none)
    {id : Int} {changed : MelodyTable} (runs : inserted draft table = .ok (id, changed)) :
    (store.insert draft).1 = .ok id ∧ Serves (store.insert draft).2 changed :=
  serves.query_ok (List.findSome?_eq_none_iff.mpr passes) runs

theorem insert_refused {draft : Draft} (passes : ∀ value ∈ draft.values, refusal? value = none)
    {fault : QueryFault} (refused : inserted draft table = .error fault) :
    (store.insert draft).1 = .error (.query fault) ∧ Serves (store.insert draft).2 table :=
  serves.query_error (List.findSome?_eq_none_iff.mpr passes) refused

theorem insert_mispassed {draft : Draft} {value : Datum} (member : value ∈ draft.values)
    (refused : refusal? value ≠ none) :
    ∃ told, (store.insert draft).1 = .error told ∧ Serves (store.insert draft).2 table := by
  apply serves.query_mispassed
  rw [Option.isSome_iff_ne_none]
  intro passes
  exact refused (List.findSome?_eq_none_iff.mp passes value member)

theorem update {id keyIndex tempo : Int} {content : String} {record : Record}
    (member : record ∈ table.records) (numbered : record.id = id)
    (fits : Datum.fits id = true ∧ Datum.fits keyIndex = true ∧ Datum.fits tempo = true)
    (writable : IsWritable content) :
    (store.update (Amount.whole id) content (Amount.whole keyIndex) (Amount.whole tempo)).1 =
        .ok () ∧
      Serves (store.update (Amount.whole id) content (Amount.whole keyIndex) (Amount.whole tempo)).2
        { table with
          records := table.records.map fun record =>
            if record.id = id then
              { record with
                content
                keyIndex := Amount.whole keyIndex
                tempo := Amount.whole tempo }
            else record } := by
  obtain ⟨fitsId, fitsKey, fitsTempo⟩ := fits
  apply serves.query_ok
  · simp [refusal?_text.mpr writable, refusal?_whole fitsId, refusal?_whole fitsKey,
      refusal?_whole fitsTempo]
  · have found : (table.records.any fun record => isNumbered record (Amount.whole id)) = true :=
      List.any_eq_true.mpr ⟨record, member, (isNumbered_whole record id).mpr numbered⟩
    simp only [found, Datum.words?, isNumbered_whole, Datum.counted]
    rfl

theorem update_unwritable {id keyIndex tempo : Datum} {content : String}
    (unwritable : ¬IsWritable content) :
    ∃ told, (store.update id content keyIndex tempo).1 = .error told ∧
      Serves (store.update id content keyIndex tempo).2 table := by
  apply serves.query_mispassed
  rw [Option.isSome_iff_ne_none]
  intro passes
  rw [List.findSome?_eq_none_iff] at passes
  exact unwritable (refusal?_text.mp (passes content (by simp)))

theorem delete {id : Int} (fits : Datum.fits id = true) :
    (store.delete (Amount.whole id)).1 = .ok () ∧
      Serves (store.delete (Amount.whole id)).2
        { table with
          records := table.records.filter fun record =>
            !isNumbered record (Amount.whole id) } := by
  apply serves.query_ok
  · simp [refusal?_whole fits]
  · rfl

end Serves

end Store

end Jianpu
