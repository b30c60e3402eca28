import Jianpu.Library
import Jianpu.Proofs.Library.Shelf

/-! What a save comes to in any database. One that gives a number has left the document under it,
and one that fails without words was made on a closed store or was given a value that no database
takes. -/

set_option autoImplicit false

namespace Jianpu

open Number (Amount)

namespace Store

variable {α : Type} {store ready : Store} {statement : Statement} {values : List Datum}
  {run : MelodyTable → Except QueryFault (α × MelodyTable)}

theorem begin_keeps (store : Store) :
    store.begin.database = store.database ∧ store.begin.isOpen = store.isOpen := by
  unfold begin
  split <;> exact ⟨rfl, rfl⟩

theorem prepare_keeps (prepared : store.prepare statement = .ok ready) :
    ready.database = store.database ∧ ready.isOpen = store.isOpen := by
  unfold prepare at prepared
  split at prepared
  · cases prepared
    exact ⟨rfl, rfl⟩
  · split at prepared
    · cases prepared
    · cases prepared
      exact ⟨rfl, rfl⟩

theorem execute_eq_ok {outcome : α × MelodyTable}
    (executed : store.execute statement run = .ok outcome) :
    ∃ table, store.database = .melodies table ∧ run table = .ok outcome := by
  unfold execute at executed
  split at executed
  · cases executed
  · split at executed
    · cases executed
    · cases executed
    · rename_i table held
      exact ⟨table, held, executed⟩

/-- A query that goes through has found a table, and leaves what its statement makes of it. -/
theorem query_eq_ok {after : Store} {result : α}
    (succeeds : store.query statement values run = (.ok result, after)) :
    ∃ table changed, store.database = .melodies table ∧ run table = .ok (result, changed) ∧
      after.database = .melodies changed ∧ after.begun = none ∧ after.isOpen = true := by
  unfold query at succeeds
  split at succeeds
  · cases succeeds
  rename_i isOpen
  split at succeeds
  · cases succeeds
  rename_i ready prepared
  obtain ⟨keepsDatabase, keepsOpen⟩ := prepare_keeps prepared
  have started : (if statement.changes then ready.begin else ready).database = store.database ∧
      (if statement.changes then ready.begin else ready).isOpen = store.isOpen := by
    rw [← keepsDatabase, ← keepsOpen]
    split
    · exact begin_keeps ready
    · exact ⟨rfl, rfl⟩
  dsimp only at succeeds
  split at succeeds
  · unfold mispass at succeeds
    split at succeeds <;> cases succeeds
  split at succeeds
  · cases succeeds
  rename_i executed
  cases succeeds
  obtain ⟨table, held, runs⟩ := execute_eq_ok executed
  exact ⟨table, _, started.1.symm.trans held, runs, rfl, rfl,
    started.2.trans (by simpa using isOpen)⟩

theorem message?_of_refusal? {value : Datum} {error : StoreError}
    (refused : refusal? value = some error) : error.message? = none := by
  unfold refusal? at refused
  split at refused
  · obtain ⟨fault, -, rfl⟩ := Option.map_eq_some_iff.mp refused
    rfl
  · split at refused <;> cases refused
    rfl
  · cases refused
  · cases refused

/-- A query fails without words on a closed store and on a value that cannot be passed. -/
theorem query_eq_error {error : StoreError}
    (fails : (store.query statement values run).1 = .error error)
    (wordless : error.message? = none) :
    error = .closed ∧ store.isOpen = false ∨ ∃ value ∈ values, refusal? value = some error := by
  unfold query at fails
  split at fails
  · rename_i closed
    cases fails
    exact .inl ⟨rfl, by simpa using closed⟩
  · split at fails
    · cases fails
      cases wordless
    · dsimp only at fails
      split at fails
      · rename_i refused
        unfold mispass at fails
        split at fails
        · cases fails
          cases wordless
        · cases fails
          exact .inr (List.exists_of_findSome?_eq_some refused)
      · split at fails
        · cases fails
          cases wordless
        · cases fails

/-! Records -/

theorem exists_record_of_findId {after : Store} {title album owner : String} {id : Int}
    (found : store.findId title album owner = (.ok (some id), after)) :
    ∃ table, after.database = .melodies table ∧ ∃ record ∈ table.records, record.id = id ∧
      record.title = title ∧ record.album = album ∧ record.owner = some owner := by
  obtain ⟨table, changed, -, runs, left, -⟩ := query_eq_ok found
  obtain ⟨named, rfl⟩ := Prod.mk.inj (Except.ok.inj runs)
  obtain ⟨record, present, numbered⟩ := Option.map_eq_some_iff.mp named
  refine ⟨table, left, record, List.mem_of_find?_eq_some present, numbered, ?_⟩
  have isNamed := List.find?_some present
  exact (isNamed_text record title album owner).mp isNamed

theorem exists_record_of_update {after : Store} {id : Int} {content : String}
    {keyIndex tempo : Datum} {record : Record} {table : MelodyTable}
    (held : store.database = .melodies table) (member : record ∈ table.records)
    (numbered : record.id = id)
    (updated : store.update (Amount.whole id) content keyIndex tempo = (.ok (), after)) :
    after.begun = none ∧ ∃ changed, after.database = .melodies changed ∧
      { record with content, keyIndex := keyIndex.counted, tempo := tempo.counted } ∈
        changed.records := by
  obtain ⟨same, changed, present, runs, left, begun, -⟩ := query_eq_ok updated
  cases held.symm.trans present
  have isNumbered := (isNumbered_whole record id).mpr numbered
  have any : (table.records.any fun record => Store.isNumbered record (Amount.whole id)) = true :=
    List.any_eq_true.mpr ⟨record, member, isNumbered⟩
  rw [any] at runs
  simp only [Bool.not_true, Bool.false_eq_true, ↓reduceIte, Datum.words?] at runs
  obtain ⟨-, rfl⟩ := Prod.mk.inj (Except.ok.inj runs)
  refine ⟨begun, _, left, List.mem_map.mpr ⟨record, member, ?_⟩⟩
  rw [if_pos isNumbered]

theorem mem_including (record : Record) (records : List Record) :
    record ∈ including record records := by
  induction records with
  | nil => exact List.mem_singleton_self record
  | cons first rest ih =>
      unfold including
      split
      · exact List.mem_cons_self
      · exact List.mem_cons_of_mem first ih

/-- What is added to a table: the record of a draft, under a number that it brings or that is
the next one. -/
theorem inserted_eq_ok {draft : Draft} {table changed : MelodyTable} {id : Int}
    (runs : inserted draft table = .ok (id, changed)) :
    numberFor table draft.id = .ok id ∧ ∃ record, draft.record id = .ok record ∧
      changed = ⟨including record table.records, max table.lastId id⟩ := by
  unfold inserted at runs
  cases numbered : numberFor table draft.id with
  | error fault =>
      rw [numbered] at runs
      cases runs
  | ok given =>
      cases made : draft.record given with
      | error fault =>
          simp only [numbered, made, bind, Except.bind] at runs
          cases runs
      | ok record =>
          simp only [numbered, made, bind, Except.bind] at runs
          split at runs
          · cases runs
          · cases runs
            exact ⟨rfl, record, made, rfl⟩

theorem exists_record_of_insert {after : Store} {draft : Draft} {id : Int}
    (added : store.insert draft = (.ok id, after)) :
    after.begun = none ∧ ∃ changed, after.database = .melodies changed ∧
      ∃ record ∈ changed.records, draft.record id = .ok record := by
  obtain ⟨table, changed, -, runs, left, begun, -⟩ := query_eq_ok added
  obtain ⟨-, record, made, rfl⟩ := inserted_eq_ok runs
  exact ⟨begun, _, left, record, mem_including .., made⟩

/-- A document that stands for good under a number, as one of an owner's. -/
structure HasDocument (store : Store) (owner : String) (document : Document) (id : Int) : Prop where
  begun : store.begun = none
  record : ∃ table, store.database = .melodies table ∧ ∃ record ∈ table.records,
    record.id = id ∧ record.title = document.title ∧ record.album = document.album ∧
      record.owner = some owner ∧ record.content = document.stored ∧
      record.keyIndex = (Datum.number document.keyIndex).counted ∧
      record.tempo = (Datum.number document.tempo).counted

end Store

/-! Saves -/

namespace Library

variable {ε : Type} {library : Library} {now : String} {document : Document}
  {answer : Except ε Bool}

/-- Values that saving a document hands to the database: its own, its owner and the time, and
numbers of records. -/
def IsPassed (library : Library) (now : String) (document : Document) (value : Datum) : Prop :=
  value ∈ (library.draftOf now document document.stored).values ∨
    ∃ table, library.store.database = .melodies table ∧
      ∃ record ∈ table.records, value = .number (.whole record.id)

/-- How a save goes, by what it finds in the store and what it is answered. -/
inductive SaveRun (library : Library) (now : String) (document : Document) (answer : Except ε Bool) :
    Except (SaveError ε) (Option Int) → Store → Prop where
  | busy :
      library.isSaving = true → SaveRun library now document answer (.ok none) library.store
  | untitled :
      (Text.trim document.title).isEmpty = true →
      SaveRun library now document answer (.error .missingTitle) library.store
  | unsearched {error : StoreError} {found : Store} :
      library.store.findId document.title document.album library.owner = (.error error, found) →
      SaveRun library now document answer (.error (.store error)) found
  | unanswered {id : Int} {found : Store} {reason : ε} :
      library.store.findId document.title document.album library.owner = (.ok (some id), found) →
      answer = .error reason →
      SaveRun library now document answer (.error (.unanswered reason)) found
  | declined {id : Int} {found : Store} :
      library.store.findId document.title document.album library.owner = (.ok (some id), found) →
      answer = .ok false → SaveRun library now document answer (.ok none) found
  | overwritten {id : Int} {found after : Store} :
      library.store.findId document.title document.album library.owner = (.ok (some id), found) →
      answer = .ok true →
      found.update (Amount.whole id) document.stored document.keyIndex document.tempo =
        (.ok (), after) →
      SaveRun library now document answer (.ok (some id)) after
  | unwritten {id : Int} {found after : Store} {error : StoreError} :
      library.store.findId document.title document.album library.owner = (.ok (some id), found) →
      answer = .ok true →
      found.update (Amount.whole id) document.stored document.keyIndex document.tempo =
        (.error error, after) →
      SaveRun library now document answer (.error (.store error)) after
  | added {id : Int} {found after : Store} :
      library.store.findId document.title document.album library.owner = (.ok none, found) →
      found.insert (library.draftOf now document document.stored) = (.ok id, after) →
      SaveRun library now document answer (.ok (some id)) after
  | unadded {found after : Store} {error : StoreError} :
      library.store.findId document.title document.album library.owner = (.ok none, found) →
      found.insert (library.draftOf now document document.stored) = (.error error, after) →
      SaveRun library now document answer (.error (.store error)) after

theorem overwrite_run {result : Except (SaveError ε) (Option Int)} {after : Library} {left : Store}
    {id : Int}
    (found : library.store.findId document.title document.album library.owner =
      (.ok (some id), left))
    (overwrites : { library with isSaving := true, store := left }.overwrite
      (fun _ asked => (answer, asked)) document document.stored id = (result, after)) :
    SaveRun library now document answer result after.store := by
  cases answer with
  | error reason =>
      cases overwrites
      exact .unanswered found rfl
  | ok confirmed =>
      cases confirmed with
      | false =>
          cases overwrites
          exact .declined found rfl
      | true =>
          rcases updated : left.update (Amount.whole id) document.stored document.keyIndex
            document.tempo with ⟨given, last⟩
          simp only [overwrite, keep, updated] at overwrites
          cases given with
          | error error =>
              cases overwrites
              exact .unwritten found rfl updated
          | ok done =>
              cases overwrites
              exact .overwritten found rfl updated

theorem write_run {result : Except (SaveError ε) (Option Int)} {after : Library}
    (writes : { library with isSaving := true }.write now (fun _ asked => (answer, asked)) document =
      (result, after)) :
    SaveRun library now document answer result after.store := by
  unfold write keep at writes
  rcases found : library.store.findId document.title document.album library.owner with
    ⟨number, left⟩
  simp only [found] at writes
  cases number with
  | error error =>
      cases writes
      exact .unsearched found
  | ok number =>
      cases number with
      | none =>
          rcases inserted : left.insert (library.draftOf now document document.stored) with
            ⟨given, last⟩
          unfold Document.stored draftOf at inserted
          simp only [draftOf, inserted] at writes
          cases given with
          | error error =>
              cases writes
              exact .unadded found inserted
          | ok id =>
              cases writes
              exact .added found inserted
      | some id => exact overwrite_run found writes

theorem save_run {result : Except (SaveError ε) (Option Int)} {after : Library}
    (saves : library.save now (fun _ asked => (answer, asked)) document = (result, after)) :
    ∃ left, after.store = left ∧ SaveRun library now document answer result left := by
  refine ⟨_, rfl, ?_⟩
  unfold save at saves
  split at saves
  · rename_i saving
    cases saves
    exact .busy saving
  split at saves
  · rename_i blank
    cases saves
    exact .untitled blank
  rcases writes : { library with isSaving := true }.write now (fun _ asked => (answer, asked))
    document with ⟨given, written⟩
  rw [writes] at saves
  have ends : SaveRun library now document answer given written.store := write_run writes
  cases saves
  exact ends

/-- A save that does not ask is the same whatever it would be answered. -/
theorem save_of_unasked {reason : ε} {confirm : Confirmation ε}
    (unasked : ∀ after, library.save now (fun _ asked => (.error reason, asked)) document ≠
      (.error (.unanswered reason), after)) :
    library.save now (fun _ asked => (.error reason, asked)) document =
      library.save now confirm document := by
  unfold save at unasked ⊢
  split
  · rfl
  rename_i idle
  split
  · rfl
  rename_i titled
  rw [if_neg idle, if_neg titled] at unasked
  unfold write keep at unasked ⊢
  rcases found : library.store.findId document.title document.album library.owner with
    ⟨result, searched⟩
  rw [found] at unasked
  cases result with
  | error error => rfl
  | ok number =>
      cases number with
      | none => rfl
      | some id => exact absurd rfl (unasked _)

/-- A save that gives a number has left the document there. -/
theorem hasDocument_of_save {after : Library} {id : Int}
    (saves : library.save now (fun _ asked => (answer, asked)) document = (.ok (some id), after)) :
    after.store.HasDocument library.owner document id := by
  obtain ⟨left, kept, run⟩ := save_run saves
  rw [kept]
  cases run with
  | overwritten search _ updated =>
      obtain ⟨table, held, record, member, numbered, title, album, owner⟩ :=
        Store.exists_record_of_findId search
      obtain ⟨begun, changed, left, present⟩ :=
        Store.exists_record_of_update held member numbered updated
      exact ⟨begun, changed, left, _, present, numbered, title, album, owner, rfl, rfl, rfl⟩
  | added _ inserted =>
      obtain ⟨begun, changed, left, record, present, made⟩ := Store.exists_record_of_insert inserted
      obtain rfl := Except.ok.inj made
      exact ⟨begun, changed, left, _, present, rfl, rfl, rfl, rfl, rfl, rfl, rfl⟩

theorem findId_keeps {found : Store} {title album owner : String} {number : Option Int}
    (search : library.store.findId title album owner = (.ok number, found)) :
    found.database = library.store.database ∧ found.isOpen = true := by
  obtain ⟨table, changed, held, runs, left, -, isOpen⟩ := Store.query_eq_ok search
  obtain ⟨-, rfl⟩ := Prod.mk.inj (Except.ok.inj runs)
  exact ⟨left.trans held.symm, isOpen⟩

/-- A save that gives no number has changed nothing. It was answered with no, or another save was
under way. -/
theorem declined_of_save {after : Library}
    (saves : library.save now (fun _ asked => (answer, asked)) document = (.ok none, after)) :
    (library.isSaving = true ∨ answer = .ok false) ∧
      after.store.database = library.store.database := by
  obtain ⟨left, kept, run⟩ := save_run saves
  rw [kept]
  cases run with
  | busy saving => exact ⟨.inl saving, rfl⟩
  | declined search answered => exact ⟨.inr answered, (findId_keeps search).1⟩

theorem untitled_of_save {after : Library}
    (saves : library.save now (fun _ asked => (answer, asked)) document =
      (.error .missingTitle, after)) : (Text.trim document.title).isEmpty = true := by
  obtain ⟨left, -, run⟩ := save_run saves
  cases run with
  | untitled blank => exact blank

theorem unanswered_of_save {after : Library} {reason : ε}
    (saves : library.save now (fun _ asked => (answer, asked)) document =
      (.error (.unanswered reason), after)) : answer = .error reason := by
  obtain ⟨left, -, run⟩ := save_run saves
  cases run with
  | unanswered search answered => exact answered

/-- A save that fails without words was made on a closed store, or hands over a value that no
database takes. -/
theorem refusal_of_save {after : Library} {error : StoreError}
    (saves : library.save now (fun _ asked => (answer, asked)) document =
      (.error (.store error), after)) (wordless : error.message? = none) :
    error = .closed ∧ library.store.isOpen = false ∨
      ∃ value, library.IsPassed now document value ∧ Store.refusal? value = some error := by
  obtain ⟨left, -, run⟩ := save_run saves
  cases run with
  | unsearched search =>
      rcases Store.query_eq_error (congrArg Prod.fst search) wordless with
        closed | ⟨value, member, refused⟩
      · exact .inl closed
      · refine .inr ⟨value, .inl ?_, refused⟩
        simp only [List.mem_cons, List.not_mem_nil, or_false] at member
        rcases member with rfl | rfl | rfl <;> simp [draftOf, Store.Draft.values]
  | unwritten search _ updated =>
      obtain ⟨database, isOpen⟩ := findId_keeps search
      obtain ⟨table, held, record, present, rfl, -⟩ := Store.exists_record_of_findId search
      rcases Store.query_eq_error (congrArg Prod.fst updated) wordless with
        ⟨-, closed⟩ | ⟨value, member, refused⟩
      · cases isOpen.symm.trans closed
      · refine .inr ⟨value, ?_, refused⟩
        simp only [List.mem_cons, List.not_mem_nil, or_false] at member
        rcases member with rfl | rfl | rfl | rfl
        · exact .inl (by simp [draftOf, Store.Draft.values])
        · exact .inl (by simp [draftOf, Store.Draft.values])
        · exact .inl (by simp [draftOf, Store.Draft.values])
        · exact .inr ⟨table, database.symm.trans held, record, present, rfl⟩
  | unadded search inserted =>
      rcases Store.query_eq_error (congrArg Prod.fst inserted) wordless with
        ⟨-, closed⟩ | ⟨value, member, refused⟩
      · cases (findId_keeps search).2.symm.trans closed
      · exact .inr ⟨value, .inl member, refused⟩

end Library

end Jianpu
