import Jianpu.Library
import Jianpu.Proofs.Library.Shelf

/-! A library does to its store what is said of a shelf: a save puts a document
under a number that was never given, or in the place of the owner's own with its
title and album; a delete takes an owner's own away; nothing else changes it. -/

set_option autoImplicit false

namespace Jianpu

open Jianpu.Shelf (HeldBy)

namespace Library

/-- A call of a library by one of several that share a store. While a save asks,
it may be asked to save other documents; what it asks may be answered or not. -/
inductive Call (ε : Type) where
  | save (facade : Nat) (now : String) (document : Document) (meanwhile : List Document)
      (answer : Except ε Bool)
  | load (facade : Nat) (reach : Envelope.Reach) (id : Int)
  | delete (facade : Nat) (id : Int)

inductive Reply (ε : Type) where
  | saved (result : Except (SaveError ε) (Option Int))
  | loaded (result : Except LoadError Document)
  | deleted (result : Except StoreError Bool)

variable {ε : Type}

def Call.facade : Call ε → Nat
  | .save facade .. | .load facade .. | .delete facade _ => facade

/-- A call with numbers of 64 bits, and with a time that has octets. -/
def Call.Fits : Call ε → Prop
  | .save _ now document _ _ => IsWritable now ∧ document.Fits
  | .load _ _ id | .delete _ id => Datum.fits id = true

/-- What saving a document may give back, and what becomes of the shelf. -/
inductive Saves (shelf : Shelf) (owner now : String) (document : Document) :
    Except ε Bool → Except (SaveError ε) (Option Int) → Shelf → Prop where
  | untitled {answer : Except ε Bool} :
      (Text.trim document.title).isEmpty = true →
      Saves shelf owner now document answer (.error .missingTitle) shelf
  | inserted {answer : Except ε Bool} {id : Int} :
      (Text.trim document.title).isEmpty = false → shelf.Lacks owner document → ¬shelf.used id →
      Saves shelf owner now document answer (.ok (some id)) (shelf.put id ⟨owner, now, document⟩)
  | replaced {id : Int} {entry : Entry} :
      (Text.trim document.title).isEmpty = false → shelf.get? id = some entry →
      entry.IsNamed owner document →
      Saves shelf owner now document (.ok true) (.ok (some id))
        (shelf.put id { entry with document })
  | declined {id : Int} {entry : Entry} :
      (Text.trim document.title).isEmpty = false → shelf.get? id = some entry →
      entry.IsNamed owner document →
      Saves shelf owner now document (.ok false) (.ok none) shelf
  | unanswered {reason : ε} {id : Int} {entry : Entry} :
      (Text.trim document.title).isEmpty = false → shelf.get? id = some entry →
      entry.IsNamed owner document →
      Saves shelf owner now document (.error reason) (.error (.unanswered reason)) shelf
  | unwritable {answer : Except ε Bool} {error : StoreError} :
      (Text.trim document.title).isEmpty = false →
      ¬(IsWritable document.title ∧ IsWritable document.album ∧ IsWritable owner ∧
        IsWritable document.stored) →
      Saves shelf owner now document answer (.error (.store error)) shelf
  | full {answer : Except ε Bool} :
      (Text.trim document.title).isEmpty = false → shelf.Lacks owner document → shelf.IsFull →
      Saves shelf owner now document answer (.error (.store (.query .full))) shelf

/-- What a call may give back, and what becomes of the shelf. -/
inductive Answers (owners : Nat → String) (shelf : Shelf) : Call ε → Reply ε → Shelf → Prop where
  | saved {facade : Nat} {now : String} {document : Document} {meanwhile : List Document}
      {answer : Except ε Bool} {result : Except (SaveError ε) (Option Int)} {after : Shelf} :
      Saves shelf (owners facade) now document answer result after →
      Answers owners shelf (.save facade now document meanwhile answer) (.saved result) after
  | loaded {facade : Nat} {reach : Envelope.Reach} {id : Int} {entry : Entry} :
      shelf.get? id = some entry →
      Answers owners shelf (.load facade reach id) (.loaded (.ok entry.document.restored)) shelf
  | unknown {facade : Nat} {reach : Envelope.Reach} {id : Int} :
      shelf.get? id = none →
      Answers owners shelf (.load facade reach id) (.loaded (.error (.unknown id))) shelf
  | deleted {facade : Nat} {id : Int} {entry : Entry} :
      shelf.get? id = some entry → entry.owner = owners facade →
      Answers owners shelf (.delete facade id) (.deleted (.ok true)) (shelf.remove id)
  | kept {facade : Nat} {id : Int} :
      (∀ entry, shelf.get? id = some entry → entry.owner ≠ owners facade) →
      Answers owners shelf (.delete facade id) (.deleted (.ok false)) shelf

/-- Calls with their replies, and what becomes of the shelf through them. -/
inductive Follows (owners : Nat → String) : Shelf → List (Call ε × Reply ε) → Shelf → Prop where
  | nil {shelf : Shelf} : Follows owners shelf [] shelf
  | snoc {before shelf after : Shelf} {calls : List (Call ε × Reply ε)} {call : Call ε}
      {reply : Reply ε} :
      Follows owners before calls shelf → Answers owners shelf call reply after →
      Follows owners before (calls ++ [(call, reply)]) after

/-! Libraries that share a store -/

/-- A store in several hands, some of which may be saving. -/
structure Shared where
  store : Store
  saving : Nat → Bool := fun _ => false

/-- The library of one of those who share a store. -/
def Shared.library (shared : Shared) (owners : Nat → String) (facade : Nat) : Library where
  store := shared.store
  owner := owners facade
  isSaving := shared.saving facade

def Shared.used (shared : Shared) (facade : Nat) (library : Library) : Shared where
  store := library.store
  saving := Function.update shared.saving facade library.isSaving

/-- Asks for an answer, while other documents are to be saved. -/
def asking (now : String) (meanwhile : List Document) (answer : Except ε Bool) : Confirmation ε :=
  fun _ library =>
    (answer, meanwhile.foldl
      (fun library document => (library.save now (fun _ asked => (answer, asked)) document).2)
      library)

def perform (owners : Nat → String) (shared : Shared) : Call ε → Reply ε × Shared
  | .save facade now document meanwhile answer =>
    let (result, library) :=
      (shared.library owners facade).save now (asking now meanwhile answer) document
    (.saved result, shared.used facade library)
  | .load facade reach id =>
    let (result, library) := (shared.library owners facade).load reach id
    (.loaded result, shared.used facade library)
  | .delete facade id =>
    let (result, library) := (shared.library owners facade).delete id
    (.deleted result, shared.used facade library)

def performAll (owners : Nat → String) (shared : Shared) (calls : List (Call ε)) :
    List (Call ε × Reply ε) × Shared :=
  calls.foldl
    (fun (noted, shared) call =>
      let (reply, after) := perform owners shared call
      (noted ++ [(call, reply)], after))
    ([], shared)

/-! Saving -/

/-- While a save asks, no other one is let in. -/
theorem save_while_saving {library : Library} (saving : library.isSaving = true) (now : String)
    (confirm : Confirmation ε) (document : Document) :
    library.save now confirm document = (.ok none, library) := by
  rw [save, if_pos saving]

theorem asking_while_saving {library : Library} (saving : library.isSaving = true) (now : String)
    (meanwhile : List Document) (answer : Except ε Bool) (document : Document) :
    asking now meanwhile answer document library = (answer, library) := by
  unfold asking
  induction meanwhile with
  | nil => rfl
  | cons other others ih =>
      rw [List.foldl_cons, save_while_saving saving]
      exact ih

variable {shelf : Shelf} {library : Library}

theorem overwrite_saves (saving : library.isSaving = true) (held : HeldBy shelf library.store)
    {document : Document} (fits : document.Fits)
    (titled : (Text.trim document.title).isEmpty = false) {id : Int} {entry : Entry}
    (present : shelf.get? id = some entry) (named : entry.IsNamed library.owner document)
    (now : String) (meanwhile : List Document) (answer : Except ε Bool) :
    ∃ after, Saves shelf library.owner now document answer
        (library.overwrite (asking now meanwhile answer) document document.stored id).1 after ∧
      HeldBy after
        (library.overwrite (asking now meanwhile answer) document document.stored id).2.store := by
  unfold overwrite
  rw [asking_while_saving saving]
  cases answer with
  | error reason => exact ⟨shelf, .unanswered titled present named, held⟩
  | ok agreed =>
      cases agreed with
      | false => exact ⟨shelf, .declined titled present named, held⟩
      | true =>
          obtain ⟨owner, title, album⟩ := named
          by_cases writable : IsWritable document.stored
          · obtain ⟨answered, after⟩ := held.update present ⟨rfl, title, album⟩ fits writable
            refine ⟨_, ?_, after⟩
            dsimp only [keep]
            rw [answered]
            exact .replaced titled present ⟨owner, title, album⟩
          · obtain ⟨told, answered, after⟩ := held.update_unwritable id writable
            refine ⟨shelf, ?_, after⟩
            dsimp only [keep]
            rw [answered]
            exact .unwritable titled fun texts => writable texts.2.2.2

theorem insert_saves (held : HeldBy shelf library.store) {document : Document}
    (fits : document.Fits) (titled : (Text.trim document.title).isEmpty = false)
    (writable : IsWritable document.title ∧ IsWritable document.album ∧ IsWritable library.owner)
    (lacks : shelf.Lacks library.owner document) {now : String} (timed : IsWritable now)
    (answer : Except ε Bool) :
    ∃ after, Saves shelf library.owner now document answer
        (((library.store.insert (library.draftOf now document document.stored)).1.map
          some).mapError .store) after ∧
      HeldBy after (library.store.insert (library.draftOf now document document.stored)).2 := by
  have drafted : library.draftOf now document document.stored =
      Entry.draft ⟨library.owner, now, document⟩ := rfl
  rw [drafted]
  by_cases stored : IsWritable document.stored
  · obtain ⟨titleWritable, albumWritable, ownerWritable⟩ := writable
    have passes := Entry.passes_draft ⟨library.owner, now, document⟩ fits
      ⟨titleWritable, albumWritable, ownerWritable, stored⟩ timed
    rcases held.insert fits lacks passes with ⟨id, answered, fresh, after⟩ | ⟨answered, full, after⟩
    · rw [answered]
      exact ⟨_, .inserted titled lacks fresh, after⟩
    · rw [answered]
      exact ⟨shelf, .full titled lacks full, after⟩
  · obtain ⟨told, answered, after⟩ :=
      held.insert_unwritable ⟨library.owner, now, document⟩ stored
    rw [answered]
    exact ⟨shelf, .unwritable titled fun texts => stored texts.2.2.2, after⟩

theorem write_saves (saving : library.isSaving = true) (held : HeldBy shelf library.store)
    {document : Document} (fits : document.Fits)
    (titled : (Text.trim document.title).isEmpty = false) {now : String} (timed : IsWritable now)
    (meanwhile : List Document) (answer : Except ε Bool) :
    ∃ after, Saves shelf library.owner now document answer
        (library.write now (asking now meanwhile answer) document).1 after ∧
      HeldBy after (library.write now (asking now meanwhile answer) document).2.store := by
  unfold write
  dsimp only [keep]
  by_cases writable :
      IsWritable document.title ∧ IsWritable document.album ∧ IsWritable library.owner
  · obtain ⟨after, found⟩ := held.findId writable
    have same : HeldBy shelf (library.keep
        (library.store.findId document.title document.album library.owner)).2.store := after
    have stillSaving : (library.keep
        (library.store.findId document.title document.album library.owner)).2.isSaving = true :=
      saving
    rcases found with ⟨answered, lacks⟩ | ⟨id, entry, answered, present, named⟩
    · rw [answered]
      exact insert_saves same fits titled writable lacks timed answer
    · rw [answered]
      exact overwrite_saves stillSaving same fits titled present named now meanwhile answer
  · obtain ⟨told, answered, after⟩ := held.findId_unwritable writable
    rw [answered]
    refine ⟨shelf, .unwritable titled fun texts => writable ?_, after⟩
    exact ⟨texts.1, texts.2.1, texts.2.2.1⟩

theorem save_saves (idle : library.isSaving = false) (held : HeldBy shelf library.store)
    {document : Document} (fits : document.Fits) {now : String} (timed : IsWritable now)
    (meanwhile : List Document) (answer : Except ε Bool) :
    ∃ after, Saves shelf library.owner now document answer
        (library.save now (asking now meanwhile answer) document).1 after ∧
      HeldBy after (library.save now (asking now meanwhile answer) document).2.store := by
  unfold save
  rw [if_neg (by simp [idle])]
  cases titled : (Text.trim document.title).isEmpty with
  | true => exact ⟨shelf, .untitled titled, held⟩
  | false =>
      have saving : ({ library with isSaving := true } : Library).isSaving = true := rfl
      obtain ⟨after, saves, heldAfter⟩ := write_saves saving held fits titled timed meanwhile answer
      exact ⟨after, saves, heldAfter⟩

theorem isSaving_save (idle : library.isSaving = false) (now : String)
    (confirm : Confirmation ε) (document : Document) :
    (library.save now confirm document).2.isSaving = false := by
  unfold save
  rw [if_neg (by simp [idle])]
  split
  · exact idle
  · rfl

/-! Loading and deleting -/

theorem load_answers (held : HeldBy shelf library.store) (reach : Envelope.Reach) {id : Int}
    (fits : Datum.fits id = true) :
    HeldBy shelf (library.load reach id).2.store ∧
      (library.load reach id).2.isSaving = library.isSaving ∧
      ((∃ entry, shelf.get? id = some entry ∧
          (library.load reach id).1 = .ok entry.document.restored) ∨
        shelf.get? id = none ∧ (library.load reach id).1 = .error (.unknown id)) := by
  obtain ⟨answered, after⟩ := held.get fits
  unfold load
  dsimp only [keep]
  rw [answered]
  cases present : shelf.get? id with
  | none => exact ⟨after, rfl, .inr ⟨rfl, rfl⟩⟩
  | some entry =>
      obtain ⟨table, -, keeps⟩ := held
      have documentFits := keeps.sound.fits id entry present
      refine ⟨?_, ?_, .inl ⟨entry, rfl, ?_⟩⟩
      all_goals simp only [Option.map_some, Entry.decode?_record documentFits reach,
        Entry.documentOf_record documentFits]
      · exact after
      · rfl

theorem delete_answers (held : HeldBy shelf library.store) {id : Int}
    (fits : Datum.fits id = true) :
    (library.delete id).2.isSaving = library.isSaving ∧
      ((∃ entry, shelf.get? id = some entry ∧ entry.owner = library.owner ∧
          (library.delete id).1 = .ok true ∧
          HeldBy (shelf.remove id) (library.delete id).2.store) ∨
        (∀ entry, shelf.get? id = some entry → entry.owner ≠ library.owner) ∧
          (library.delete id).1 = .ok false ∧ HeldBy shelf (library.delete id).2.store) := by
  obtain ⟨answered, after⟩ := held.get fits
  unfold delete
  dsimp only [keep]
  rw [answered]
  cases present : shelf.get? id with
  | none => exact ⟨rfl, .inr ⟨by simp, rfl, after⟩⟩
  | some entry =>
      simp only [Option.map_some, Entry.record, Option.some.injEq]
      by_cases owned : entry.owner = library.owner
      · rw [if_pos owned]
        obtain ⟨removed, afterwards⟩ := after.delete fits
        dsimp only
        rw [removed]
        exact ⟨rfl, .inl ⟨entry, rfl, owned, rfl, afterwards⟩⟩
      · rw [if_neg owned]
        refine ⟨rfl, .inr ⟨?_, rfl, after⟩⟩
        rintro _ ⟨⟩
        exact owned

/-! Calls -/

/-- A store that holds a shelf, with no save under way. -/
structure Shows (shared : Shared) (shelf : Shelf) : Prop where
  held : HeldBy shelf shared.store
  idle : ∀ facade, shared.saving facade = false

theorem idle_used {shared : Shared} (idle : ∀ facade, shared.saving facade = false)
    (facade : Nat) {library : Library} (settled : library.isSaving = false) :
    ∀ other, (shared.used facade library).saving other = false := by
  intro other
  simp only [Shared.used, Function.update_apply]
  split
  · exact settled
  · exact idle other

theorem perform_answers (owners : Nat → String) {shared : Shared} {shelf : Shelf}
    (shows : Shows shared shelf) {call : Call ε} (fits : call.Fits) :
    ∃ after, Answers owners shelf call (perform owners shared call).1 after ∧
      Shows (perform owners shared call).2 after := by
  obtain ⟨held, idle⟩ := shows
  have heldBy : ∀ facade, HeldBy shelf (shared.library owners facade).store := fun _ => held
  cases call with
  | save facade now document meanwhile answer =>
      obtain ⟨timed, documentFits⟩ := fits
      obtain ⟨after, saves, heldAfter⟩ :=
        save_saves (idle facade) (heldBy facade) documentFits timed meanwhile answer
      have settled : ((shared.library owners facade).save now (asking now meanwhile answer)
          document).2.isSaving = false :=
        isSaving_save (idle facade) now (asking now meanwhile answer) document
      exact ⟨after, .saved saves, heldAfter, idle_used idle facade settled⟩
  | load facade reach id =>
      obtain ⟨heldAfter, saving, answered⟩ := load_answers (heldBy facade) reach fits
      refine ⟨shelf, ?_, heldAfter, idle_used idle facade (saving.trans (idle facade))⟩
      dsimp only [perform]
      rcases answered with ⟨entry, present, answered⟩ | ⟨missing, answered⟩
      · rw [answered]
        exact .loaded present
      · rw [answered]
        exact .unknown missing
  | delete facade id =>
      obtain ⟨saving, answered⟩ := delete_answers (heldBy facade) fits
      have settled := idle_used idle facade (saving.trans (idle facade))
      dsimp only [perform]
      rcases answered with ⟨entry, present, owned, answered, heldAfter⟩ |
        ⟨other, answered, heldAfter⟩
      · rw [answered]
        exact ⟨_, .deleted present owned, heldAfter, settled⟩
      · rw [answered]
        exact ⟨shelf, .kept other, heldAfter, settled⟩

/-- A call leaves the documents of other owners alone. -/
theorem Answers.keeps_others {owners : Nat → String} {shelf after : Shelf} {call : Call ε}
    {reply : Reply ε} (sound : shelf.IsSound) (answers : Answers owners shelf call reply after)
    {id : Int} {entry : Entry} (present : shelf.get? id = some entry)
    (other : entry.owner ≠ owners call.facade) : after.get? id = some entry := by
  cases answers with
  | loaded | unknown | kept => exact present
  | @deleted _ own another found owned =>
      refine Shelf.get?_remove.mpr ⟨?_, present⟩
      rintro rfl
      obtain rfl := Option.some.inj (present.symm.trans found)
      exact other owned
  | saved saves =>
      cases saves with
      | untitled | declined | unanswered | unwritable | full => exact present
      | inserted _ _ fresh =>
          refine Shelf.get?_put.mpr (.inr ⟨?_, present⟩)
          rintro rfl
          exact fresh (sound.used id entry present)
      | @replaced own another _ found named =>
          refine Shelf.get?_put.mpr (.inr ⟨?_, present⟩)
          rintro rfl
          obtain rfl := Option.some.inj (present.symm.trans found)
          exact other named.1

theorem shows_empty : Shows ⟨Store.ofDatabase .blank, fun _ => false⟩ Shelf.empty where
  held := ⟨{}, ⟨rfl, rfl, rfl, by simp [Store.ofDatabase]⟩,
    { distinct := List.nodup_nil
      records := by simp [Shelf.empty]
      sound := Shelf.isSound_empty
      given := by simp [Shelf.empty]
      last := ⟨Int.le_refl _, by decide, .inl rfl⟩ }⟩
  idle _ := rfl

theorem performAll_snoc (owners : Nat → String) (shared : Shared) (calls : List (Call ε))
    (call : Call ε) :
    performAll owners shared (calls ++ [call]) =
      let (noted, before) := performAll owners shared calls
      let (reply, after) := perform owners before call
      (noted ++ [(call, reply)], after) := by
  rw [performAll, List.foldl_append]
  rfl

theorem performAll_follows (owners : Nat → String) {calls : List (Call ε)}
    (fits : ∀ call ∈ calls, call.Fits) {shared : Shared} {shelf : Shelf}
    (shows : Shows shared shelf) :
    (performAll owners shared calls).1.map (·.1) = calls ∧
      ∃ after, Follows owners shelf (performAll owners shared calls).1 after ∧
        Shows (performAll owners shared calls).2 after := by
  induction calls using List.reverseRecOn with
  | nil => exact ⟨rfl, shelf, .nil, shows⟩
  | append_singleton calls call ih =>
      obtain ⟨same, middle, follows, showsMiddle⟩ :=
        ih fun other member => fits other (List.mem_append_left _ member)
      obtain ⟨after, answers, showsAfter⟩ :=
        perform_answers owners showsMiddle (fits call (by simp))
      rw [performAll_snoc]
      exact ⟨by simp [same], after, .snoc follows answers, showsAfter⟩

theorem pairwise_named {table : MelodyTable} {shelf : Shelf} (keeps : Shelf.Keeps table shelf) :
    table.records.Pairwise fun one other =>
      ¬(one.title = other.title ∧ one.album = other.album ∧ one.owner = other.owner) := by
  have distinct : table.records.Pairwise fun one other => one.id ≠ other.id :=
    List.pairwise_map.mp keeps.distinct
  refine distinct.imp_of_mem ?_
  rintro one other memberOne memberOther differ ⟨title, album, owner⟩
  obtain ⟨entry, presentOne, sameOne⟩ := (keeps.records one).mp memberOne
  obtain ⟨another, presentOther, sameOther⟩ := (keeps.records other).mp memberOther
  rw [sameOne, sameOther] at title album owner
  exact differ (keeps.sound.unique _ _ entry another presentOne presentOther
    ⟨Option.some.inj owner, title, album⟩)

/-- The libraries that share a store that was empty at first do with it what is
said of a shelf. -/
theorem calls_follow_shelf (owners : Nat → String) (calls : List (Call ε))
    (fits : ∀ call ∈ calls, call.Fits) {noted : List (Call ε × Reply ε)} {shared : Shared}
    (performed : performAll owners ⟨Store.ofDatabase .blank, fun _ => false⟩ calls =
      (noted, shared)) :
    ∃ shelf table, noted.map (·.1) = calls ∧ Follows owners Shelf.empty noted shelf ∧
      shared.store.database = .melodies table ∧
      (∀ record, record ∈ table.records ↔
        ∃ entry, shelf.get? record.id = some entry ∧ record = entry.record record.id) ∧
      (table.records.Pairwise fun one other =>
        ¬(one.title = other.title ∧ one.album = other.album ∧ one.owner = other.owner)) ∧
      (∀ facade, shared.saving facade = false) ∧
      (∀ call : Call ε, call.Fits → ∃ changed,
        (perform owners shared call).2.store.database = .melodies changed ∧
          ∀ record ∈ table.records, record.owner ≠ some (owners call.facade) →
            record ∈ changed.records) ∧
      ∀ (library : Library) (now : String) (confirm : Confirmation ε) (document : Document),
        library.isSaving = true → library.save now confirm document = (.ok none, library) := by
  obtain ⟨same, shelf, follows, shows⟩ := performAll_follows owners fits shows_empty
  rw [performed] at same follows shows
  obtain ⟨table, serves, keeps⟩ := shows.held
  refine ⟨shelf, table, same, follows, serves.database, keeps.records, pairwise_named keeps,
    shows.idle, ?_, fun _ now confirm document saving =>
      save_while_saving saving now confirm document⟩
  intro call callFits
  obtain ⟨after, answers, showsAfter⟩ := perform_answers owners shows callFits
  obtain ⟨changed, servesAfter, keepsAfter⟩ := showsAfter.held
  refine ⟨changed, servesAfter.database, ?_⟩
  intro record member other
  obtain ⟨entry, present, same⟩ := (keeps.records record).mp member
  refine (keepsAfter.records record).mpr ⟨entry, ?_, same⟩
  apply answers.keeps_others keeps.sound present
  intro owned
  rw [same] at other
  exact other (congrArg some owned)

/-- Two owners save a document of one name, and each has one of their own. -/
theorem calls_follow_shelf_of_two_owners :
    ∃ (shared : Shared) (table : MelodyTable),
      (performAll (fun facade => if facade = 0 then "ada" else "bob")
        ⟨Store.ofDatabase .blank, fun _ => false⟩
        [.save 0 "2024" { title := "Jasmine" } [] (.ok true : Except Unit Bool),
          .save 1 "2025" { title := "Jasmine" } [] (.ok true)]).2 = shared ∧
      shared.store.database = .melodies table ∧ shared.saving 0 = false := by
  have fits : ({ title := "Jasmine" } : Document).Fits :=
    ⟨by decide, ⟨0, rfl, by decide⟩, ⟨100, rfl, by decide⟩, (by decide : Json.IsShort 20),
      (by decide : Json.IsShort 20)⟩
  have first : IsWritable "2024" := rfl
  have second : IsWritable "2025" := rfl
  obtain ⟨shelf, table, -, -, shown, -, -, idle, -⟩ := calls_follow_shelf
    (fun facade => if facade = 0 then "ada" else "bob")
    [.save 0 "2024" { title := "Jasmine" } [] (.ok true : Except Unit Bool),
      .save 1 "2025" { title := "Jasmine" } [] (.ok true)]
    (by simp [Call.Fits, fits, first, second]) (Prod.eta _).symm
  exact ⟨_, table, rfl, shown, idle 0⟩

end Library

end Jianpu
