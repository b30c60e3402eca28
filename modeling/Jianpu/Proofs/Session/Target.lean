import Jianpu.Proofs.Session.Coherence

/-! The block that is recorded into. A recording keeps the position it was asked
for, while edits may carry the block itself elsewhere: only a move does so, for
blocks are added at the end and recording stops when one is removed. -/

set_option autoImplicit false

namespace Jianpu

open Capture (Source)

/-- Where the element at `place` stands when the one at `index` has been taken out
and put in again in front of `target` others. -/
def moved (index target place : Nat) : Nat :=
  if place = index then target
  else
    let among := if place < index then place else place - 1
    if among < target then among else among + 1

theorem getElem?_moved {α : Type} (elements : List α) {index target place : Nat}
    (inside : index < elements.length) (below : target < elements.length)
    (standing : place < elements.length) :
    ((elements.eraseIdx index).insertIdx target elements[index])[moved index target place]? =
      elements[place]? := by
  have others := List.length_eraseIdx_of_lt inside
  rw [List.getElem?_insertIdx]
  unfold moved
  by_cases same : place = index
  · subst same
    rw [if_pos rfl, if_neg (Nat.lt_irrefl _), if_pos rfl, if_pos (by omega)]
    exact (List.getElem?_eq_getElem inside).symm
  · rw [if_neg same]
    dsimp only
    by_cases before : place < index
    · rw [if_pos before]
      by_cases early : place < target
      · rw [if_pos early, if_pos early, List.getElem?_eraseIdx, if_pos before]
      · rw [if_neg early, if_neg (by omega), if_neg (by omega), Nat.add_sub_cancel,
          List.getElem?_eraseIdx, if_pos before]
    · rw [if_neg before]
      by_cases early : place - 1 < target
      · rw [if_pos early, if_pos early, List.getElem?_eraseIdx, if_neg (by omega),
          Nat.sub_add_cancel (by omega)]
      · rw [if_neg early, if_neg (by omega), if_neg (by omega), Nat.add_sub_cancel,
          List.getElem?_eraseIdx, if_neg (by omega), Nat.sub_add_cancel (by omega)]

namespace Document

def kinds (document : Document) : List BlockKind :=
  document.blocks.map (·.kind)

/-- Where the block at `place` stands after a move. -/
def placeAfterMove (document : Document) (index target : Int) (place : Nat) : Nat :=
  match position? document.blocks.length index with
  | none => place
  | some position =>
    moved position (insertionPoint (document.blocks.length - 1) target) place

theorem kinds_of_block? {document : Document} {place : Nat} {block : Block}
    (found : document.block? place = some block) (melody : block.kind = .melody) :
    document.kinds[place]? = some .melody := by
  obtain ⟨position, counted, rfl⟩ := Option.map_eq_some_iff.mp found
  have same := place_of_position? counted
  rw [kinds, List.getElem?_map, same, List.getElem?_eq_getElem position.isLt]
  exact congrArg some melody

theorem kinds_updateBlock {before after : Document} {index : Int} {content : String}
    (updated : before.updateBlock index content = .ok after) : after.kinds = before.kinds := by
  simp only [updateBlock] at updated
  split at updated
  · cases updated
  · rename_i place _
    obtain rfl := Except.ok.inj updated
    rw [kinds, List.map_set]
    apply List.ext_getElem?
    intro other
    rw [List.getElem?_set]
    split
    · rename_i here
      subst here
      simp [kinds]
    · rfl

theorem kinds_addBlock (document : Document) (kind : BlockKind) (content : String) :
    (document.addBlock kind content).kinds = document.kinds ++ [kind] := by
  simp [kinds, addBlock]

theorem kinds_addNamedBlock {before after : Document} {kindName content : String}
    (added : before.addNamedBlock kindName content = .ok after) :
    ∃ kind, after.kinds = before.kinds ++ [kind] := by
  unfold addNamedBlock at added
  split at added
  · rename_i kind _
    obtain rfl := Except.ok.inj added
    exact ⟨kind, kinds_addBlock before kind content⟩
  · cases added

/-- A move takes every block to its place after the move, and changes none. -/
theorem kinds_moveBlock {before after : Document} {index target : Int}
    (taken : before.moveBlock index target = .ok after) :
    after.kinds.length = before.kinds.length ∧
      ∀ place < before.kinds.length,
        after.kinds[before.placeAfterMove index target place]? = before.kinds[place]? := by
  cases found : position? before.blocks.length index with
  | none => simp [moveBlock, found] at taken
  | some position =>
      simp only [moveBlock, found] at taken
      split at taken
      · obtain rfl := Except.ok.inj taken
        have inside := position.isLt
        have others := List.length_eraseIdx_of_lt inside
        have below : insertionPoint (before.blocks.length - 1) target ≤
            before.blocks.length - 1 := Nat.min_le_right _ _
        simp only [placeAfterMove, found, others]
        constructor
        · simp only [kinds, List.length_map, List.length_insertIdx, others, if_pos below]
          omega
        · intro place standing
          simp only [kinds, List.length_map] at standing
          simp only [kinds, List.getElem?_map]
          exact congrArg (Option.map _) (getElem?_moved before.blocks inside (by omega) standing)
      · cases taken

end Document

namespace Session

/-- The place of the block that recording was asked for: as it was asked for, and
as it is now. -/
structure Watch where
  asked : Nat
  place : Nat

/-- Follows the block that recording was asked for through an operation. None is
asked for any more once another document is opened or a block is removed. -/
def watchAfter (operation : Operation) (session : Session) (reply : SessionReply)
    (watch : Option Watch) : Option Watch :=
  match operation, reply with
  | .startCapture index _ _, .ok .capturing => some ⟨index.toNat, index.toNat⟩
  | .moveBlock index target, .ok _ =>
      watch.map fun watch =>
        { watch with place := session.document.placeAfterMove index target watch.place }
  | .loadDocument _, _ | .removeBlock _, _ => none
  | _, _ => watch

/-- Performs an operation and follows the block that recording was asked for. -/
def advance (depth : Nat) (state : Session × Option Watch) (operation : Operation) :
    Session × Option Watch :=
  let (performed, reply) := perform depth operation state.1
  (performed, watchAfter operation state.1 reply state.2)

/-- True when a condition holds of every operation by the time it is performed. -/
def Throughout (depth : Nat) (condition : Operation → Session → Option Watch → Prop) :
    List Operation → Session × Option Watch → Prop
  | [], _ => True
  | operation :: rest, state =>
      condition operation state.1 state.2 ∧
        Throughout depth condition rest (advance depth state operation)

/-- The operations that are over at once, with a place for a recording that counts
from the start. -/
def Fits (operation : Operation) (session : Session) (_ : Option Watch) : Prop :=
  match operation with
  | .startCapture index _ _ => 0 ≤ index ∧ index < session.document.blocks.length
  | operation => operation.IsInstant

/-- True of an operation that moves no block that is being recorded. -/
def Settled (operation : Operation) (session : Session) (watch : Option Watch) : Prop :=
  match operation with
  | .moveBlock index target =>
      session.recordingBlock.isSome = true →
        ∀ now ∈ watch, session.document.placeAfterMove index target now.place = now.place
  | _ => True

/-- What holds of the block that is recorded into, where `steady` tells that it has
not been moved. -/
structure IsTarget (steady : Prop) (session : Session) (watch : Option Watch) (index : Int)
    (now : Watch) : Prop where
  watching : watch = some now
  asked : index = now.asked
  inside : now.asked < session.document.kinds.length
  melody : session.document.kinds[now.place]? = some .melody
  unmoved : steady → now.place = now.asked

/-- A recording, if there is one, is watched. -/
def IsWatched (steady : Prop) (session : Session) (watch : Option Watch) : Prop :=
  ∀ index, session.recordingBlock = some index → ∃ now, IsTarget steady session watch index now

theorem isWatched_of_idle {steady : Prop} {session : Session} {watch : Option Watch}
    (idle : session.recordingBlock = none) : IsWatched steady session watch := by
  intro index recording
  rw [idle] at recording
  cases recording

theorem recordingBlock_stopCapture (session : Session) :
    session.stopCapture.recordingBlock = none := by
  rw [stopCapture_eq]
  rfl

theorem recordingBlock_unless_recording (session : Session) :
    (if session.recordingBlock.isSome then session.stopCapture else session).recordingBlock =
      none := by
  split
  · exact recordingBlock_stopCapture session
  · rename_i idle
    simpa using idle

theorem recordingBlock_edited (session : Session) (edit : Except EditError Document) :
    (session.edited edit).1.recordingBlock = session.recordingBlock := by
  cases edit <;> rfl

theorem beginCapture_holds (session : Session) (index : Int) (source : Source (List Operation))
    (playReference : Bool) :
    ∃ number, (session.beginCapture index source playReference).held = some number ∧
      (session.beginCapture index source playReference).recordings[number]? =
        some (.ofSource session.logarithm source) := by
  simp only [beginCapture, offered]
  rw [stopCadence_eq, stopPlayback_eq]
  split <;> exact ⟨_, rfl, List.getElem?_concat_length⟩

/-- What comes of asking to record: nothing is recorded then, or the block at the
place, which is one of melody. -/
theorem startCapture_cases (session : Session) (index : Int) (source : Source (List Operation))
    (playReference : Bool) :
    (session.startCapture index source playReference).2 ≠ .ok .capturing ∧
        (session.startCapture index source playReference).1.recordingBlock = none ∨
      (session.startCapture index source playReference).2 = .ok .capturing ∧
        (session.startCapture index source playReference).1.recordingBlock = some index ∧
        (∃ number, (session.startCapture index source playReference).1.held = some number ∧
          (session.startCapture index source playReference).1.recordings[number]? =
            some (.ofSource session.logarithm source)) ∧
        ∃ block, session.document.block? index = some block ∧ block.kind = .melody := by
  have idle := recordingBlock_unless_recording session
  have same := (sameText_unless_recording session).document
  have logarithm := logarithm_unless_recording session
  unfold startCapture
  dsimp only
  generalize (if session.recordingBlock.isSome then session.stopCapture else session) = silent
    at idle same logarithm
  split
  · exact .inl ⟨nofun, idle⟩
  · split
    · exact .inl ⟨nofun, idle⟩
    · rename_i block found
      split
      · rename_i melody
        rw [same] at found
        rw [← logarithm]
        exact .inr ⟨rfl, rfl, beginCapture_holds silent index source playReference, block, found,
          melody⟩
      · exact .inl ⟨nofun, idle⟩

section Advance

variable {steady : Prop} {watch : Option Watch}

theorem IsWatched.of_prefix {before after : Session} (holds : IsWatched steady before watch)
    (same : after.recordingBlock = before.recordingBlock)
    (kept : before.document.kinds <+: after.document.kinds) : IsWatched steady after watch := by
  intro index recording
  rw [same] at recording
  obtain ⟨now, watching, asked, inside, melody, unmoved⟩ := holds index recording
  refine ⟨now, watching, asked, Nat.lt_of_lt_of_le inside kept.length_le, ?_, unmoved⟩
  obtain ⟨further, extended⟩ := kept
  have standing := (List.getElem?_eq_some_iff.mp melody).1
  rw [← extended, List.getElem?_append_left standing, melody]

variable {session : Session}

theorem IsWatched.edited (holds : IsWatched steady session watch)
    {edit : Except EditError Document}
    (kept : ∀ after, edit = .ok after → session.document.kinds <+: after.kinds) :
    IsWatched steady (session.edited edit).1 watch := by
  cases made : edit with
  | error => exact holds
  | ok after => exact holds.of_prefix rfl (kept after made)

theorem isWatched_removeBlock (index : Int) :
    IsWatched steady (session.removeBlock index).1 watch := by
  refine isWatched_of_idle ?_
  rw [removeBlock, recordingBlock_edited, recordingBlock_unless_recording]

/-- A move takes the watched block along. -/
theorem IsWatched.moveBlock (holds : IsWatched steady session watch) {index target : Int}
    (settled : steady → Settled (.moveBlock index target) session watch) :
    let edited := session.edited (session.document.moveBlock index target)
    IsWatched steady edited.1 (watchAfter (.moveBlock index target) session edited.2 watch) := by
  cases edit : session.document.moveBlock index target with
  | error => exact holds
  | ok after =>
      obtain ⟨length, taken⟩ := Document.kinds_moveBlock edit
      intro edited place recording
      obtain ⟨now, rfl, asked, inside, melody, unmoved⟩ := holds place recording
      have standing := (List.getElem?_eq_some_iff.mp melody).1
      have before : session.recordingBlock = some place := recording
      refine ⟨_, rfl, asked, length ▸ inside, (taken now.place standing).trans melody, ?_⟩
      intro still
      have stays := settled still (by simp [before]) now rfl
      exact stays.trans (unmoved still)

theorem IsWatched.setKey (holds : IsWatched steady session watch) (index : Int) :
    IsWatched steady (session.setKey index).1 watch := by
  rw [Session.setKey]
  split
  · exact holds
  · exact holds.of_prefix rfl List.prefix_rfl

theorem IsWatched.importScore (holds : IsWatched steady session watch)
    (score : Score Number.Amount) (forceKey : Bool) :
    IsWatched steady (session.importScore score forceKey).1 watch := by
  rw [Session.importScore]
  split
  · exact holds
  · exact holds
  · exact holds.of_prefix rfl List.prefix_rfl
  · exact holds.of_prefix rfl ⟨[.melody], (Document.kinds_addBlock _ _ _).symm⟩

/-- The block that recording is asked for is watched from where it stands. -/
theorem isWatched_startCapture (asked : Nat) (source : Source (List Operation))
    (playReference : Bool) (standing : asked < session.document.blocks.length) :
    let started := session.startCapture asked source playReference
    IsWatched steady started.1
      (watchAfter (.startCapture asked source playReference) session started.2 watch) := by
  have same := (sameText_startCapture session asked source playReference).document
  rcases startCapture_cases session asked source playReference with
    ⟨-, idle⟩ | ⟨capturing, recording, -, block, found, melody⟩
  · exact isWatched_of_idle idle
  · intro started place isRecording
    rw [recording] at isRecording
    obtain rfl := Option.some.inj isRecording
    dsimp only [started]
    rw [capturing]
    refine ⟨⟨asked, asked⟩, rfl, rfl, ?_, ?_, fun _ => rfl⟩
    · rw [same]
      simpa [Document.kinds] using standing
    · rw [same]
      exact Document.kinds_of_block? found melody

theorem IsWatched.startPlayback (holds : IsWatched steady session watch) :
    IsWatched steady session.startPlayback.1 watch := by
  rw [Session.startPlayback]
  split
  · exact holds
  · have idle : session.stopCapture.stopPlayback.recordingBlock = none := by
      rw [stopPlayback_eq]
      exact recordingBlock_stopCapture session
    apply isWatched_of_idle
    dsimp only
    split
    · exact idle
    · split <;> exact idle

theorem IsWatched.advance {operation : Operation} (depth : Nat)
    (fits : Fits operation session watch) (settled : steady → Settled operation session watch)
    (holds : IsWatched steady session watch) :
    IsWatched steady (advance depth (session, watch) operation).1
      (advance depth (session, watch) operation).2 := by
  simp only [Session.advance]
  rw [perform_eq]
  cases operation with
  | loadDocument document => exact isWatched_of_idle (recordingBlock_stopCapture session)
  | updateBlock index content =>
      exact holds.edited fun _ edit => Document.kinds_updateBlock edit ▸ List.prefix_rfl
  | addBlock kindName =>
      refine holds.edited fun _ edit => ?_
      obtain ⟨kind, added⟩ := Document.kinds_addNamedBlock edit
      exact ⟨[kind], added.symm⟩
  | removeBlock index => exact isWatched_removeBlock index
  | moveBlock index target => exact holds.moveBlock settled
  | setKey index => exact holds.setKey index
  | setSettings settings => exact holds.of_prefix rfl List.prefix_rfl
  | drawings =>
      simp only [performWith, watchAfter]
      split <;> exact holds
  | importScore score forceKey => exact holds.importScore score forceKey
  | startCapture index source playReference =>
      obtain ⟨fromStart, inside⟩ := fits
      obtain ⟨asked, rfl⟩ := Int.eq_ofNat_of_zero_le fromStart
      exact isWatched_startCapture asked source playReference (Int.ofNat_lt.mp inside)
  | runCapture => exact fits.elim
  | stopCapture => exact isWatched_of_idle (recordingBlock_stopCapture session)
  | startPlayback => exact holds.startPlayback
  | stopPlayback =>
      simp only [performWith, watchAfter, stopPlayback_eq]
      exact holds.of_prefix rfl List.prefix_rfl

theorem IsWatched.foldl_advance (depth : Nat) {operations : List Operation}
    {state : Session × Option Watch} (fits : Throughout depth Fits operations state)
    (settled : steady → Throughout depth Settled operations state)
    (holds : IsWatched steady state.1 state.2) :
    IsWatched steady (operations.foldl (Session.advance depth) state).1
      (operations.foldl (Session.advance depth) state).2 := by
  induction operations generalizing state with
  | nil => exact holds
  | cons operation rest ih =>
      exact ih fits.2 (fun still => (settled still).2)
        (holds.advance depth fits.1 fun still => (settled still).1)

end Advance

/-- Through any edits a recording writes to the position that it was asked for. The
block that stood there is one of melody still, and unless it has been moved while
it was recorded into, it still stands there. -/
theorem recordingBlock_is_asked_for (document : Document) (hasScheduler : Bool)
    (logarithm : Pitch.Logarithm) (depth : Nat) (operations : List Operation)
    (fits : Throughout depth Fits operations (ofDocument document hasScheduler logarithm, none))
    (index : Int) {last : Session × Option Watch}
    (performed : operations.foldl (advance depth)
      (ofDocument document hasScheduler logarithm, none) = last)
    (recording : last.1.recordingBlock = some index) :
    ∃ now block, last.2 = some now ∧ index = now.asked ∧
      now.asked < last.1.document.blocks.length ∧
      last.1.document.blocks[now.place]? = some block ∧ block.kind = .melody ∧
      (Throughout depth Settled operations (ofDocument document hasScheduler logarithm, none) →
        index = now.place) := by
  have initial : IsWatched
      (Throughout depth Settled operations (ofDocument document hasScheduler logarithm, none))
      (ofDocument document hasScheduler logarithm) none :=
    isWatched_of_idle rfl
  have holds := IsWatched.foldl_advance depth fits id initial
  rw [performed] at holds
  obtain ⟨now, watching, asked, inside, melody, unmoved⟩ := holds index recording
  rw [Document.kinds, List.getElem?_map] at melody
  cases found : last.1.document.blocks[now.place]? with
  | none => simp [found] at melody
  | some block =>
      refine ⟨now, block, watching, asked, ?_, found, ?_, ?_⟩
      · simpa [Document.kinds] using inside
      · simpa [found] using melody
      · intro settled
        rw [asked, unmoved settled]

/-- Another block that is put in behind the recorded one leaves it where it is. -/
theorem recordingBlock_is_asked_for_beside_move :
    ∃ last : Session × Option Watch,
      [.startCapture 0 { signals := [] } false, .addBlock "chords", .moveBlock 2 1].foldl
        (advance 0) (ofDocument { blocks := [⟨.melody, "1"⟩, ⟨.chords, "C"⟩] } true, none) = last ∧
      last.1.recordingBlock = some 0 ∧
      ∃ block, last.1.document.blocks[0]? = some block ∧ block.kind = .melody := by
  refine ⟨_, rfl, rfl, ?_⟩
  obtain ⟨now, block, -, -, -, found, melody, stays⟩ := recordingBlock_is_asked_for
    { blocks := [⟨.melody, "1"⟩, ⟨.chords, "C"⟩] } true Pitch.binaryLogarithm 0
    [.startCapture 0 { signals := [] } false, .addBlock "chords", .moveBlock 2 1]
    ⟨⟨by decide, by decide⟩, trivial, trivial, trivial⟩ 0 rfl rfl
  have here := stays ⟨trivial, trivial, fun _ _ watching => by
    obtain rfl := Option.some.inj watching
    rfl, trivial⟩
  exact ⟨block, by rwa [← Int.ofNat.inj here] at found, melody⟩

/-- A block that is moved while it is recorded into leaves the recording to the one
that takes its place, here one of chords. -/
theorem recordingBlock_astray_after_move :
    ∃ last : Session × Option Watch,
      [.startCapture 0 { signals := [] } false, .moveBlock 0 1].foldl (advance 0)
        (ofDocument { blocks := [⟨.melody, "1"⟩, ⟨.chords, "C"⟩] } true, none) = last ∧
      last.1.recordingBlock = some 0 ∧ last.2 = some ⟨0, 1⟩ ∧
      last.1.document.blocks = [⟨.chords, "C"⟩, ⟨.melody, "1"⟩] :=
  ⟨_, rfl, rfl, rfl, rfl⟩

end Session

end Jianpu
