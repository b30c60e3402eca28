import Jianpu.Proofs.Library.Keeping
import Mathlib.Data.List.Nodup

/-! Requests to a store, one after the other, by all who have its database open. What
one of them makes of the table is told by a relation with a case for each kind of
change; what a run of them makes of it follows from that step by step. -/

set_option autoImplicit false

namespace Jianpu

open Number (Amount)

/-! Tables -/

namespace MelodyTable

/-- Numbers as they are given: each to one record, and none above the last one. -/
structure IsNumbered (table : MelodyTable) : Prop where
  distinct : (table.records.map (·.id)).Nodup
  bounds : ∀ record ∈ table.records, 0 < record.id ∧ record.id ≤ table.lastId
  last : 0 ≤ table.lastId ∧ table.lastId < Datum.wholeLimit

theorem IsNumbered.eq_of_id {table : MelodyTable} (numbered : table.IsNumbered)
    {one other : Record} (first : one ∈ table.records) (second : other ∈ table.records)
    (same : one.id = other.id) : one = other :=
  List.inj_on_of_nodup_map numbered.distinct first second same

theorem IsNumbered.find? {table : MelodyTable} (numbered : table.IsNumbered) {record : Record}
    (member : record ∈ table.records) :
    (table.records.find? fun other => Store.isNumbered other (Amount.whole record.id)) =
      some record := by
  cases found : table.records.find? fun other =>
      Store.isNumbered other (Amount.whole record.id) with
  | none =>
      exact absurd ((Store.isNumbered_whole record record.id).mpr rfl)
        (List.find?_eq_none.mp found record member)
  | some other =>
      have holds := List.find?_some found
      have same := (Store.isNumbered_whole other record.id).mp holds
      exact congrArg some (numbered.eq_of_id (List.mem_of_find?_eq_some found) member same)

theorem IsNumbered.fits {table : MelodyTable} (numbered : table.IsNumbered) {record : Record}
    (member : record ∈ table.records) : Datum.fits record.id = true := by
  have bounds := numbered.bounds record member
  have last := numbered.last
  have opposite : -Datum.wholeLimit ≤ 0 := by decide
  simp only [Datum.fits, Bool.and_eq_true, decide_eq_true_eq]
  omega

/-- The numbers of the records with a title, an album and an owner. -/
def namesakes (table : MelodyTable) (title album owner : String) : List Int :=
  (table.records.filter fun record => Store.isNamed record title album owner).map (·.id)

end MelodyTable

namespace Store

/-! Requests -/

/-- A request to a store. The number of a new record is the store's to give. -/
inductive Request where
  | recent (limit : Int)
  | get (id : Datum)
  | findId (title album owner : Datum)
  | insert (draft : Draft)
  | update (id content keyIndex tempo : Datum)
  | delete (id : Datum)
  | close

def Request.run (store : Store) : Request → Store
  | .recent limit => (store.recent limit).2
  | .get id => (store.get id).2
  | .findId title album owner => (store.findId title album owner).2
  | .insert draft => (store.insert { draft with id := .missing }).2
  | .update id content keyIndex tempo => (store.update id content keyIndex tempo).2
  | .delete id => (store.delete id).2
  | .close => store.close

/-- A record with a new content, key and tempo, if it has the number. -/
def rewritten (id : Datum) (content : String) (keyIndex tempo : Datum) (record : Record) : Record :=
  if isNumbered record id then
    { record with content, keyIndex := keyIndex.counted, tempo := tempo.counted }
  else record

/-- What a request may make of a table. -/
inductive Request.Changes : Request → MelodyTable → MelodyTable → Prop where
  | nothing {request : Request} {table : MelodyTable} : Changes request table table
  | added {draft : Draft} {table : MelodyTable} {record : Record} :
      Datum.fits (table.lastId + 1) = true → draft.record (table.lastId + 1) = .ok record →
      Changes (.insert draft) table
        ⟨including record table.records, max table.lastId (table.lastId + 1)⟩
  | updated {id content keyIndex tempo : Datum} {words : String} {table : MelodyTable} :
      content.words? = some words →
      Changes (.update id content keyIndex tempo) table
        { table with records := table.records.map (rewritten id words keyIndex tempo) }
  | deleted {id : Datum} {table : MelodyTable} :
      Changes (.delete id) table
        { table with records := table.records.filter fun record => !isNumbered record id }

def Request.Deletes (id : Int) : Request → Prop
  | .delete number => number.whole? = some id
  | _ => False

/-- True of a request for a new record with a title, an album and an owner. -/
def Request.Adds (title album owner : String) : Request → Prop
  | .insert draft => draft.title.words? = some title ∧ draft.album.words? = some album ∧
      draft.owner.words? = some owner
  | _ => False

/-- A store that shows a table, which an open transaction has not changed. -/
structure Holds (store : Store) (table : MelodyTable) : Prop where
  database : store.database = .melodies table
  begun : ∀ before ∈ store.begun, before = .melodies table

theorem holds_commit (store : Store) (table : MelodyTable) :
    (store.commit (.melodies table)).Holds table :=
  ⟨rfl, by simp [commit]⟩

namespace Holds

variable {store : Store} {table : MelodyTable} (holds : store.Holds table)

include holds

theorem unique {other : MelodyTable} (also : store.Holds other) : table = other :=
  Database.melodies.inj (holds.database.symm.trans also.database)

theorem rollback : store.rollback.Holds table := by
  unfold Store.rollback
  cases begun : store.begun with
  | none => exact holds
  | some before => exact ⟨holds.begun before begun, by simp⟩

theorem begin : store.begin.Holds table := by
  unfold Store.begin
  cases begun : store.begun with
  | some before => exact holds
  | none => exact ⟨holds.database, by simpa using holds.database⟩

theorem mispass {α : Type} (values : List Datum) (error : StoreError) :
    (store.mispass values error : Outcome α).2.Holds table := by
  unfold Store.mispass
  split
  · exact ⟨holds.rollback.database, holds.rollback.begun⟩
  · exact ⟨holds.database, holds.begun⟩

theorem prepare {statement : Statement} {ready : Store}
    (prepared : store.prepare statement = .ok ready) : ready.Holds table := by
  unfold Store.prepare at prepared
  split at prepared
  · cases prepared
    exact holds
  · split at prepared
    · cases prepared
    · cases prepared
      exact ⟨holds.database, holds.begun⟩

/-- A query leaves the table as it was, or as its statement makes it. -/
theorem query {α : Type} (statement : Statement) (values : List Datum)
    (run : MelodyTable → Except QueryFault (α × MelodyTable)) :
    (store.query statement values run).2.Holds table ∨
      ∃ result changed, run table = .ok (result, changed) ∧
        (store.query statement values run).2.Holds changed := by
  have refused : ∀ {other : Store} {fault : QueryFault}, other.Holds table →
      (other.refuse fault : Outcome α).2.Holds table := fun still =>
    ⟨still.rollback.database, still.rollback.begun⟩
  unfold Store.query
  split
  · exact .inl holds
  split
  · exact .inl (refused holds)
  rename_i ready prepared
  have started : (if statement.changes then ready.begin else ready).Holds table := by
    split
    · exact (holds.prepare prepared).begin
    · exact holds.prepare prepared
  dsimp only
  split
  · exact .inl (started.mispass values _)
  split
  · exact .inl (refused started)
  · rename_i executed
    obtain ⟨other, held, runs⟩ := execute_eq_ok executed
    cases held.symm.trans started.database
    exact .inr ⟨_, _, runs, holds_commit _ _⟩

theorem query_reading {α : Type} {statement : Statement} {values : List Datum}
    {run : MelodyTable → Except QueryFault (α × MelodyTable)}
    (reads : ∀ result changed, run table = .ok (result, changed) → changed = table) :
    (store.query statement values run).2.Holds table := by
  rcases holds.query statement values run with same | ⟨result, changed, runs, shows⟩
  · exact same
  · exact reads result changed runs ▸ shows

theorem get (isOpen : store.isOpen = true) {id : Int} (fits : Datum.fits id = true) :
    (store.get (Amount.whole id)).1 =
      .ok (table.records.find? fun record => isNumbered record (Amount.whole id)) := by
  obtain ⟨ready, prepared⟩ : ∃ ready, store.prepare .get = .ok ready := by
    unfold Store.prepare
    rw [holds.database]
    split <;> exact ⟨_, rfl⟩
  have database := (holds.prepare prepared).database
  simp only [Store.get, Store.query, isOpen, prepared, refusal?_whole fits, List.findSome?_cons,
    List.findSome?_nil, Statement.changes, Store.execute, database, Bool.not_true, Bool.false_and,
    Bool.false_eq_true, ↓reduceIte]

end Holds

theorem inserted_next {draft : Draft} {table changed : MelodyTable} {id : Int}
    (own : draft.id = .missing) (runs : inserted draft table = .ok (id, changed)) :
    id = table.lastId + 1 ∧ Datum.fits (table.lastId + 1) = true ∧
      ∃ record, draft.record (table.lastId + 1) = .ok record ∧
        changed = ⟨including record table.records, max table.lastId (table.lastId + 1)⟩ := by
  obtain ⟨numbered, record, made, rfl⟩ := inserted_eq_ok runs
  rw [own] at numbered
  unfold numberFor at numbered
  dsimp only [Datum.counted] at numbered
  split at numbered
  · rename_i fits
    cases numbered
    exact ⟨rfl, fits, record, made, rfl⟩
  · cases numbered

theorem update_eq_ok {store after : Store} {id keyIndex tempo : Datum} {content : String}
    (updated : store.update id content keyIndex tempo = (.ok (), after)) :
    ∃ table, store.database = .melodies table ∧ after.isOpen = true ∧
      after.Holds { table with
        records := table.records.map (rewritten id content keyIndex tempo) } := by
  obtain ⟨table, changed, held, runs, left, begun, isOpen⟩ := query_eq_ok updated
  refine ⟨table, held, isOpen, ?_, by simp [begun]⟩
  rw [left]
  split at runs
  · rename_i missing
    cases runs
    have same : table.records.map (rewritten id content keyIndex tempo) = table.records := by
      refine (List.map_congr_left fun record member => ?_).trans (List.map_id' _)
      have other : isNumbered record id = false := by
        simpa using List.any_eq_false.mp (by simpa using missing) record member
      rw [rewritten, if_neg (by simp [other])]
    rw [same]
  · cases runs
    rfl

theorem Request.changes_run (request : Request) {store : Store} {table : MelodyTable}
    (holds : store.Holds table) :
    ∃ after, request.Changes table after ∧ (request.run store).Holds after := by
  cases request with
  | close => exact ⟨table, .nothing, holds.rollback.database, holds.rollback.begun⟩
  | recent | get | findId =>
      refine ⟨table, .nothing, holds.query_reading fun _ _ runs => ?_⟩
      cases runs
      rfl
  -- What fails has its transaction taken back, or has not written yet.
  | insert draft =>
      rcases holds.query .insert _ _ with same | ⟨_, changed, runs, shows⟩
      · exact ⟨table, .nothing, same⟩
      · obtain ⟨-, fits, record, made, rfl⟩ := inserted_next rfl runs
        exact ⟨_, .added fits made, shows⟩
  | update id content keyIndex tempo =>
      rcases holds.query .update _ _ with same | ⟨_, changed, runs, shows⟩
      · exact ⟨table, .nothing, same⟩
      · dsimp only at runs
        split at runs
        · cases runs
          exact ⟨_, .nothing, shows⟩
        · split at runs
          · cases runs
          · rename_i words
            cases runs
            exact ⟨_, .updated words, shows⟩
  | delete id =>
      rcases holds.query .delete _ _ with same | ⟨_, changed, runs, shows⟩
      · exact ⟨table, .nothing, same⟩
      · cases runs
        exact ⟨_, .deleted, shows⟩

/-! Tables that requests lead to -/

theorem Draft.named_of_record {draft : Draft} {id : Int} {record : Record}
    (made : draft.record id = .ok record) :
    record.id = id ∧ draft.title.words? = some record.title ∧
      draft.album.words? = some record.album ∧ draft.owner.words? = record.owner := by
  unfold Draft.record at made
  split at made
  · cases made
  · cases made
  · cases made
  · cases made
  · cases made
    exact ⟨rfl, by assumption, by assumption, rfl⟩

theorem rewritten_keeps (id : Datum) (content : String) (keyIndex tempo : Datum) (record : Record) :
    (rewritten id content keyIndex tempo record).id = record.id ∧
      (rewritten id content keyIndex tempo record).title = record.title ∧
      (rewritten id content keyIndex tempo record).album = record.album ∧
      (rewritten id content keyIndex tempo record).owner = record.owner := by
  unfold rewritten
  split <;> exact ⟨rfl, rfl, rfl, rfl⟩

end Store

namespace MelodyTable

open Store (Request Draft)

variable {before after : MelodyTable} {request : Request}

section

variable (numbered : before.IsNumbered) {draft : Draft} {record : Record}
  (made : draft.record (before.lastId + 1) = .ok record)

include numbered made

/-- A new record has a number above all others, and so comes last. -/
theorem IsNumbered.including_next :
    Store.including record before.records = before.records ++ [record] := by
  refine Store.including_last fun other member => ?_
  have bound := (numbered.bounds other member).2
  rw [(Draft.named_of_record made).1]
  omega

theorem IsNumbered.added (fits : Datum.fits (before.lastId + 1) = true) :
    IsNumbered ⟨Store.including record before.records, max before.lastId (before.lastId + 1)⟩ := by
  have id := (Draft.named_of_record made).1
  have last := numbered.last
  rw [numbered.including_next made]
  simp only [Datum.fits, Bool.and_eq_true, decide_eq_true_eq] at fits
  refine ⟨?_, ?_, ?_⟩
  · rw [List.map_append, List.nodup_append]
    refine ⟨numbered.distinct, List.nodup_singleton _, ?_⟩
    intro other member same among
    obtain ⟨earlier, present, rfl⟩ := List.mem_map.mp member
    have bound := (numbered.bounds earlier present).2
    rw [List.map_singleton, List.mem_singleton, id] at among
    omega
  · intro other member
    show 0 < other.id ∧ other.id ≤ max before.lastId (before.lastId + 1)
    rcases List.mem_append.mp member with present | here
    · have bounds := numbered.bounds other present
      omega
    · rw [List.mem_singleton.mp here, id]
      omega
  · show 0 ≤ max before.lastId (before.lastId + 1) ∧
      max before.lastId (before.lastId + 1) < Datum.wholeLimit
    omega

end

theorem ids_rewritten (table : MelodyTable) (id : Datum) (content : String)
    (keyIndex tempo : Datum) :
    (table.records.map (Store.rewritten id content keyIndex tempo)).map (·.id) =
      table.records.map (·.id) := by
  rw [List.map_map]
  exact List.map_congr_left fun record _ => (Store.rewritten_keeps ..).1

theorem IsNumbered.rewritten (numbered : before.IsNumbered) (id : Datum) (content : String)
    (keyIndex tempo : Datum) :
    { before with
      records := before.records.map (Store.rewritten id content keyIndex tempo) }.IsNumbered := by
  refine ⟨?_, ?_, numbered.last⟩
  · rw [ids_rewritten]
    exact numbered.distinct
  · intro record member
    obtain ⟨earlier, present, rfl⟩ := List.mem_map.mp member
    rw [(Store.rewritten_keeps ..).1]
    exact numbered.bounds earlier present

theorem IsNumbered.changes (numbered : before.IsNumbered) (changes : request.Changes before after) :
    after.IsNumbered := by
  cases changes with
  | nothing => exact numbered
  | added fits made => exact numbered.added made fits
  | updated => exact numbered.rewritten ..
  | deleted =>
      refine ⟨numbered.distinct.sublist (List.filter_sublist.map _), ?_, numbered.last⟩
      intro record member
      exact numbered.bounds record (List.mem_filter.mp member).1

/-- A table that has come out of another one: a record under a number that had been
given by then is still the one that it was, under its name. -/
structure Continues (before after : MelodyTable) : Prop where
  lastId : before.lastId ≤ after.lastId
  names : ∀ record ∈ after.records, record.id ≤ before.lastId →
    ∃ earlier ∈ before.records, earlier.id = record.id ∧ earlier.title = record.title ∧
      earlier.album = record.album ∧ earlier.owner = record.owner

theorem Continues.refl (table : MelodyTable) : Continues table table where
  lastId := Int.le_refl _
  names record member _ := ⟨record, member, rfl, rfl, rfl, rfl⟩

theorem Continues.trans {first second third : MelodyTable} (one : Continues first second)
    (two : Continues second third) : Continues first third where
  lastId := Int.le_trans one.lastId two.lastId
  names record member given := by
    obtain ⟨middle, between, id, title, album, owner⟩ :=
      two.names record member (Int.le_trans given one.lastId)
    obtain ⟨earlier, present, id', title', album', owner'⟩ :=
      one.names middle between (id ▸ given)
    exact ⟨earlier, present, id'.trans id, title'.trans title, album'.trans album,
      owner'.trans owner⟩

theorem continues_of_changes (numbered : before.IsNumbered)
    (changes : request.Changes before after) : Continues before after := by
  cases changes with
  | nothing => exact .refl before
  | added fits made =>
      refine ⟨Int.le_max_left _ _, fun record member given => ?_⟩
      rw [numbered.including_next made] at member
      rcases List.mem_append.mp member with present | new
      · exact ⟨record, present, rfl, rfl, rfl, rfl⟩
      · have above := (Draft.named_of_record made).1
        rw [List.mem_singleton.mp new] at given
        omega
  | updated =>
      refine ⟨Int.le_refl _, fun record member _ => ?_⟩
      obtain ⟨earlier, present, rfl⟩ := List.mem_map.mp member
      obtain ⟨id, title, album, owner⟩ := Store.rewritten_keeps _ _ _ _ earlier
      exact ⟨earlier, present, id.symm, title.symm, album.symm, owner.symm⟩
  | deleted =>
      refine ⟨Int.le_refl _, fun record member _ => ?_⟩
      exact ⟨record, (List.mem_filter.mp member).1, rfl, rfl, rfl, rfl⟩

theorem stands_of_changes (numbered : before.IsNumbered)
    (changes : request.Changes before after) {id : Int} (spares : ¬request.Deletes id)
    (stands : ∃ record ∈ before.records, record.id = id) :
    ∃ record ∈ after.records, record.id = id := by
  obtain ⟨record, present, here⟩ := stands
  cases changes with
  | nothing => exact ⟨record, present, here⟩
  | added fits made =>
      rw [numbered.including_next made]
      exact ⟨record, List.mem_append_left _ present, here⟩
  | updated =>
      exact ⟨_, List.mem_map_of_mem present, (Store.rewritten_keeps ..).1.trans here⟩
  | deleted =>
      refine ⟨record, List.mem_filter.mpr ⟨present, ?_⟩, here⟩
      rw [Store.isNumbered, here, Bool.not_eq_true', beq_eq_false_iff_ne]
      exact spares

theorem isNamed_rewritten (id : Datum) (content : String) (keyIndex tempo : Datum)
    (record : Record) (title album owner : String) :
    Store.isNamed (Store.rewritten id content keyIndex tempo record) title album owner =
      Store.isNamed record title album owner := by
  obtain ⟨-, sameTitle, sameAlbum, sameOwner⟩ :=
    Store.rewritten_keeps id content keyIndex tempo record
  simp only [Store.isNamed, sameTitle, sameAlbum, sameOwner]

theorem namesakes_rewritten (table : MelodyTable) (id : Datum) (content : String)
    (keyIndex tempo : Datum) (title album owner : String) :
    { table with
      records := table.records.map (Store.rewritten id content keyIndex tempo) }.namesakes
        title album owner = table.namesakes title album owner := by
  simp only [namesakes, List.filter_map, List.map_map]
  have named : (fun record => Store.isNamed record title album owner) ∘
      Store.rewritten id content keyIndex tempo =
        fun record => Store.isNamed record title album owner :=
    funext fun record => isNamed_rewritten ..
  rw [named]
  exact List.map_congr_left fun record _ => (Store.rewritten_keeps ..).1

theorem mem_namesakes {table : MelodyTable} {title album owner : String} {id : Int} :
    id ∈ table.namesakes title album owner ↔
      ∃ record ∈ table.records, record.id = id ∧ record.title = title ∧ record.album = album ∧
        record.owner = some owner := by
  simp only [namesakes, List.mem_map, List.mem_filter, Store.isNamed_text]
  constructor
  · rintro ⟨record, ⟨member, named⟩, here⟩
    exact ⟨record, member, here, named⟩
  · rintro ⟨record, member, here, named⟩
    exact ⟨record, ⟨member, named⟩, here⟩

theorem namesakes_append (table : MelodyTable) {record : Record} {title album owner : String}
    (named : Store.isNamed record title album owner = true) (lastId : Int) :
    MelodyTable.namesakes ⟨table.records ++ [record], lastId⟩ title album owner =
      table.namesakes title album owner ++ [record.id] := by
  simp [namesakes, List.filter_append, named]

theorem namesakes_of_changes (numbered : before.IsNumbered)
    (changes : request.Changes before after) {title album owner : String}
    (spares : ¬request.Adds title album owner) :
    (after.namesakes title album owner).Sublist (before.namesakes title album owner) := by
  cases changes with
  | nothing => exact List.Sublist.refl _
  | @added draft _ record fits made =>
      have other : Store.isNamed record title album owner = false := by
        obtain ⟨-, titled, inAlbum, owned⟩ := Draft.named_of_record made
        rw [Bool.eq_false_iff]
        intro named
        obtain ⟨rfl, rfl, own⟩ := (Store.isNamed_text record title album owner).mp named
        exact spares ⟨titled, inAlbum, owned.trans own⟩
      rw [namesakes, namesakes, numbered.including_next made, List.filter_append]
      simp [other]
  | updated =>
      rw [namesakes_rewritten]
  | deleted => exact (List.filter_sublist.filter _).map _

end MelodyTable

/-! Runs of requests -/

namespace Store

/-- A request by one who has the store itself, or by one who has another store of its
database open. -/
inductive Visit where
  | here (request : Request)
  | elsewhere (request : Request)

def Visit.request : Visit → Request
  | .here request | .elsewhere request => request

/-- The store after a visit. A transaction of its own that is still open has changed
nothing so far, and does not keep others from changing the database. -/
def Visit.run (store : Store) : Visit → Store
  | .here request => request.run store
  | .elsewhere request =>
    let changed := (request.run (ofDatabase store.database)).database
    { store with database := changed, begun := store.begun.map fun _ => changed }

def visited (store : Store) (visits : List Visit) : Store :=
  visits.foldl Visit.run store

/-- The stores that come of visits, from an empty database on, and of opening the
database again. -/
inductive IsReachable : Store → Prop where
  | opened : IsReachable (ofDatabase .blank)
  | visited {store : Store} (visit : Visit) : IsReachable store → IsReachable (visit.run store)
  | reopened {store : Store} (isReadOnly : Bool) :
      IsReachable store → IsReachable { ofDatabase store.close.database with isReadOnly }

theorem isReachable_visited {store : Store} (reachable : store.IsReachable) (visits : List Visit) :
    (store.visited visits).IsReachable :=
  List.foldlRecOn visits _ reachable fun _ reached visit _ => .visited visit reached

theorem Visit.changes_run (visit : Visit) {store : Store} {table : MelodyTable}
    (holds : store.Holds table) :
    ∃ after, visit.request.Changes table after ∧ (visit.run store).Holds after := by
  cases visit with
  | here request => exact request.changes_run holds
  | elsewhere request =>
      have other : (ofDatabase store.database).Holds table := by
        rw [holds.database]
        exact ⟨rfl, by simp [ofDatabase]⟩
      obtain ⟨after, changes, left⟩ := request.changes_run other
      refine ⟨after, changes, left.database, ?_⟩
      -- A transaction that is open here goes back to what the other one has written.
      intro before begun
      obtain ⟨-, -, rfl⟩ := Option.map_eq_some_iff.mp begun
      exact left.database

theorem IsReachable.holds {store : Store} (reachable : store.IsReachable) :
    ∃ table, store.Holds table ∧ table.IsNumbered := by
  induction reachable with
  | opened =>
      refine ⟨{}, ⟨rfl, by simp [ofDatabase]⟩, List.nodup_nil, by simp, Int.le_refl _, by decide⟩
  | visited visit _ ih =>
      obtain ⟨table, holds, numbered⟩ := ih
      obtain ⟨after, changes, left⟩ := visit.changes_run holds
      exact ⟨after, left, numbered.changes changes⟩
  | reopened isReadOnly _ ih =>
      obtain ⟨table, holds, numbered⟩ := ih
      -- Closing takes an open transaction back, and that has changed nothing.
      have database : (close _).database = _ := holds.rollback.database
      rw [database]
      exact ⟨table, ⟨rfl, by simp [ofDatabase]⟩, numbered⟩

/-- What each of several visits keeps, all of them keep. -/
theorem exists_visited (relation : MelodyTable → MelodyTable → Prop)
    (refl : ∀ table, relation table table)
    (trans : ∀ {first second third}, relation first second → relation second third →
      relation first third)
    (visits : List Visit)
    (step : ∀ visit ∈ visits, ∀ before after, before.IsNumbered →
      visit.request.Changes before after → relation before after)
    {store : Store} {table : MelodyTable} (holds : store.Holds table) (numbered : table.IsNumbered) :
    ∃ after, (store.visited visits).Holds after ∧ after.IsNumbered ∧ relation table after := by
  -- Along the visits; a step can be followed because the records are still numbered.
  induction visits generalizing store table with
  | nil => exact ⟨table, holds, numbered, refl table⟩
  | cons visit visits ih =>
      obtain ⟨next, changes, left⟩ := visit.changes_run holds
      have first := step visit List.mem_cons_self table next numbered changes
      obtain ⟨after, last, numberedAfter, rest⟩ :=
        ih (fun other member => step other (List.mem_cons_of_mem _ member)) left
          (numbered.changes changes)
      exact ⟨after, last, numberedAfter, trans first rest⟩

/-- Visits leave a table that has come out of the one before. A record that none of
them deletes still stands, and a name that none of them adds has no new records. -/
theorem visited_keeps (visits : List Visit) {store : Store} {table : MelodyTable}
    (holds : store.Holds table) (numbered : table.IsNumbered) :
    ∃ after, (store.visited visits).Holds after ∧ after.IsNumbered ∧ table.Continues after ∧
      (∀ id, (∀ visit ∈ visits, ¬visit.request.Deletes id) →
        (∃ record ∈ table.records, record.id = id) → ∃ record ∈ after.records, record.id = id) ∧
      ∀ title album owner, (∀ visit ∈ visits, ¬visit.request.Adds title album owner) →
        (after.namesakes title album owner).Sublist (table.namesakes title album owner) := by
  obtain ⟨after, left, numberedAfter, continues⟩ :=
    exists_visited MelodyTable.Continues .refl .trans visits
      (fun _ _ _ _ numbered changes => MelodyTable.continues_of_changes numbered changes)
      holds numbered
  -- The visits are followed once for each relation, and lead to the same table.
  refine ⟨after, left, numberedAfter, continues, ?_, ?_⟩
  · intro id spares
    obtain ⟨other, shown, -, stands⟩ := exists_visited
      (fun before after => (∃ record ∈ before.records, record.id = id) →
        ∃ record ∈ after.records, record.id = id)
      (fun _ stands => stands) (fun one two => two ∘ one) visits
      (fun visit member _ _ numbered changes =>
        MelodyTable.stands_of_changes numbered changes (spares visit member)) holds numbered
    rwa [shown.unique left] at stands
  · intro title album owner spares
    obtain ⟨other, shown, -, fewer⟩ := exists_visited
      (fun before after =>
        (after.namesakes title album owner).Sublist (before.namesakes title album owner))
      (fun _ => .refl _) (fun one two => two.trans one) visits
      (fun visit member _ _ numbered changes =>
        MelodyTable.namesakes_of_changes numbered changes (spares visit member)) holds numbered
    rwa [shown.unique left] at fewer

end Store

end Jianpu
