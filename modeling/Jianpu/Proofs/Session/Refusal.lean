import Jianpu.Proofs.Document.Reordering
import Jianpu.Proofs.Score.Import
import Jianpu.Proofs.Session.Target

/-! Requests that a session refuses. It stays as it is then, except that asking to
record into another block, and asking to remove one, end the recording in progress
before the request is looked at. -/

set_option autoImplicit false

namespace Jianpu

open Capture (Source)
open Number (Amount)

/-- True of the errors that refuse an operation before any of it is done. -/
def SessionError.IsRefusal : SessionError → Prop
  | .edit _ | .outOfCatalog _ | .onlyMelody | .noScheduler => True
  | .number _ | .capture _ => False

/-- True of the operations that end a recording in progress before anything else. -/
def Operation.endsRecording : Operation → Bool
  | .startCapture .. | .removeBlock _ => true
  | _ => false

theorem Import.convert_eq_outOfCatalog_iff {α : Type} [Import.NoteLength α] {score : Score α}
    {forced : Option Int} {fault : Key.OutOfCatalog} :
    Import.convert score forced = .error (.outOfCatalog fault) ↔
      ∃ index, forced = some index ∧ Key.at? index = none ∧ fault = ⟨index⟩ := by
  have found : Import.convert score forced = .error (.outOfCatalog fault) ↔
      Key.at? (Import.keyIndexOf score forced) = none ∧
        fault = ⟨Import.keyIndexOf score forced⟩ := by
    unfold Import.convert Key.resolve
    dsimp only
    cases Key.at? (Import.keyIndexOf score forced) with
    | none => simp [eq_comm (b := fault)]
    | some key =>
        simp only [reduceCtorEq, false_and, iff_false]
        split
        · nofun
        · split <;> nofun
  rw [found]
  cases forced with
  | none =>
      have inCatalog : ∀ index ∈ (none : Option Int), 0 ≤ index ∧ index < Key.catalog.length :=
        nofun
      obtain ⟨⟨key, known⟩, -⟩ := Import.keyIndexOf_inCatalog score inCatalog
      simp [known]
  | some index => simp [Import.keyIndexOf]

namespace Document

variable {document : Document} {index target : Int} {refusal : EditError}

theorem updateBlock_eq_error_iff {content : String} :
    document.updateBlock index content = .error refusal ↔
      document.block? index = none ∧ refusal = .noSuchBlock := by
  rw [block?_eq_none_iff, updateBlock]
  cases position? document.blocks.length index <;> simp [eq_comm (b := refusal)]

theorem removeBlock_eq_error_iff :
    document.removeBlock index = .error refusal ↔
      1 < document.blocks.length ∧ document.block? index = none ∧ refusal = .noSuchBlock := by
  rw [block?_eq_none_iff, removeBlock]
  split
  · rename_i few
    simp [Nat.not_lt.mpr few]
  · rename_i many
    cases position? document.blocks.length index <;>
      simp [Nat.lt_of_not_le many, eq_comm (b := refusal)]

theorem addNamedBlock_eq_error_iff {kindName content : String} :
    document.addNamedBlock kindName content = .error refusal ↔
      BlockKind.ofName? kindName = none ∧ refusal = .unknownKind kindName := by
  rw [addNamedBlock]
  cases BlockKind.ofName? kindName <;> simp [eq_comm (b := refusal)]

end Document

namespace Session

/-- What a session refuses, and why. -/
inductive Refuses (session : Session) : Operation → SessionError → Prop where
  | recordNowhere {index : Int} {source : Source (List Operation)} {playReference : Bool} :
      session.recordingBlock ≠ some index → session.document.block? index = none →
      Refuses session (.startCapture index source playReference) (.edit .noSuchBlock)
  | recordChords {index : Int} {source : Source (List Operation)} {playReference : Bool}
      {block : Block} :
      session.recordingBlock ≠ some index → session.document.block? index = some block →
      block.kind ≠ .melody →
      Refuses session (.startCapture index source playReference) .onlyMelody
  | removeNowhere {index : Int} :
      1 < session.document.blocks.length → session.document.block? index = none →
      Refuses session (.removeBlock index) (.edit .noSuchBlock)
  | updateNowhere {index : Int} {content : String} :
      session.document.block? index = none →
      Refuses session (.updateBlock index content) (.edit .noSuchBlock)
  | moveNowhere {index target : Int} :
      session.document.block? index = none →
      Refuses session (.moveBlock index target)
        (.edit (if isCountable index then .noSuchBlock else .uncountable))
  | moveTooFar {index target : Int} {block : Block} :
      session.document.block? index = some block → isCountable target = false →
      Refuses session (.moveBlock index target) (.edit .uncountable)
  | addUnknown {kindName : String} :
      BlockKind.ofName? kindName = none →
      Refuses session (.addBlock kindName) (.edit (.unknownKind kindName))
  | setUnknownKey {index : Int} :
      Key.at? index = none → Refuses session (.setKey index) (.outOfCatalog ⟨index⟩)
  | importInUnknownKey {score : Score Amount} {index : Int} :
      session.document.keyIndex.whole? = some index → Key.at? index = none →
      Refuses session (.importScore score true) (.outOfCatalog ⟨index⟩)
  | playWithoutScheduler :
      session.hasScheduler = false → Refuses session .startPlayback .noScheduler

/-- A session that has been offered a source and is the same otherwise: nothing was
asked of its scheduler, and no recording has changed. -/
def IsUntouched (before after : Session) : Prop :=
  after = { before with journal := { before.journal with offers := after.journal.offers } }

theorem isUntouched_refl (session : Session) : IsUntouched session session :=
  rfl

theorem isUntouched_offered (session : Session) (source : Source (List Operation))
    (recording : Option Nat) : IsUntouched session (session.offered source recording) :=
  rfl

/-! What is refused -/

section Reply

variable {session : Session} {index : Int} {error : SessionError}

theorem edited_eq_error_iff {edit : Except EditError Document} :
    (session.edited edit).2 = .error error ↔
      ∃ refusal, edit = .error refusal ∧ error = .edit refusal := by
  cases edit with
  | ok document => simp [edited]
  | error refusal => simp [edited, eq_comm (b := error)]

theorem startCapture_eq_error_iff {source : Source (List Operation)} {playReference : Bool} :
    (session.startCapture index source playReference).2 = .error error ↔
      session.recordingBlock ≠ some index ∧
        (session.document.block? index = none ∧ error = .edit .noSuchBlock ∨
          ∃ block, session.document.block? index = some block ∧ block.kind ≠ .melody ∧
            error = .onlyMelody) := by
  -- Ending a recording leaves the blocks, so the one that is asked for is looked up in them.
  have same := (sameText_unless_recording session).document
  unfold startCapture
  dsimp only
  generalize (if session.recordingBlock.isSome then session.stopCapture else session) = silent
    at same
  rw [same]
  by_cases own : session.recordingBlock = some index
  · simp [own]
  · rw [if_neg own]
    cases session.document.block? index with
    | none => simp [own, eq_comm (b := error)]
    | some block =>
        by_cases melody : block.kind = .melody
        · simp [melody]
        · simp [own, melody, eq_comm (b := error)]

theorem importScore_eq_error_iff {score : Score Amount} {forceKey : Bool}
    {fault : Key.OutOfCatalog} :
    (session.importScore score forceKey).2 = .error (.outOfCatalog fault) ↔
      forceKey = true ∧ ∃ index, session.document.keyIndex.whole? = some index ∧
        Key.at? index = none ∧ fault = ⟨index⟩ := by
  have converted : (session.importScore score forceKey).2 = .error (.outOfCatalog fault) ↔
      Import.convert score (if forceKey then session.document.keyIndex.whole? else none) =
        .error (.outOfCatalog fault) := by
    unfold importScore
    split <;> simp_all
  rw [converted, Import.convert_eq_outOfCatalog_iff]
  cases forceKey <;> simp

/-- A run ends with a fault of its capture or with none. -/
theorem runCapture_eq_error {aside : List Operation → Session → Session}
    (failed : (session.runCapture aside).2 = .error error) : ∃ fault, error = .capture fault := by
  unfold runCapture report at failed
  split at failed
  · cases failed
  · split at failed
    · cases failed
    · dsimp only at failed
      split at failed
      · cases failed
      · cases failed
      · cases failed
        exact ⟨_, rfl⟩

end Reply

section Performed

variable {aside : List Operation → Session → Session} {operation : Operation} {session : Session}
  {error : SessionError}

theorem refuses_of_setKey {index : Int} (refused : (session.setKey index).2 = .error error) :
    Refuses session (.setKey index) error := by
  simp only [setKey, Key.resolve] at refused
  cases known : Key.at? index with
  | none =>
      rw [known] at refused
      cases refused
      exact .setUnknownKey known
  | some key =>
      rw [known] at refused
      cases refused

theorem refuses_of_importScore {score : Score Amount} {forceKey : Bool}
    (refused : (session.importScore score forceKey).2 = .error error)
    (isRefusal : error.IsRefusal) : Refuses session (.importScore score forceKey) error := by
  cases error with
  | outOfCatalog fault =>
      obtain ⟨rfl, index, own, unknown, rfl⟩ := importScore_eq_error_iff.mp refused
      exact .importInUnknownKey own unknown
  | edit | onlyMelody | noScheduler =>
      unfold importScore at refused
      split at refused <;> cases refused
  | number | capture => exact isRefusal.elim

theorem refuses_of_startPlayback (refused : session.startPlayback.2 = .error error)
    (isRefusal : error.IsRefusal) : Refuses session .startPlayback error := by
  simp only [startPlayback] at refused
  split at refused
  · rename_i silent
    cases refused
    exact .playWithoutScheduler (by simpa using silent)
  · split at refused
    · cases refused
      exact isRefusal.elim
    · split at refused
      · cases refused
        exact isRefusal.elim
      · cases refused

theorem refuses_of_performWith (refused : (performWith aside operation session).2 = .error error)
    (isRefusal : error.IsRefusal) : Refuses session operation error := by
  cases operation with
  | loadDocument | setSettings | stopCapture | stopPlayback => cases refused
  | updateBlock index content =>
      obtain ⟨refusal, edit, rfl⟩ := edited_eq_error_iff.mp refused
      obtain ⟨nowhere, rfl⟩ := Document.updateBlock_eq_error_iff.mp edit
      exact .updateNowhere nowhere
  | addBlock kindName =>
      obtain ⟨refusal, edit, rfl⟩ := edited_eq_error_iff.mp refused
      obtain ⟨unknown, rfl⟩ := Document.addNamedBlock_eq_error_iff.mp edit
      exact .addUnknown unknown
  | removeBlock index =>
      obtain ⟨refusal, edit, rfl⟩ := edited_eq_error_iff.mp refused
      rw [(sameText_unless_recording session).document] at edit
      obtain ⟨many, nowhere, rfl⟩ := Document.removeBlock_eq_error_iff.mp edit
      exact .removeNowhere many nowhere
  | moveBlock index target =>
      obtain ⟨refusal, edit, rfl⟩ := edited_eq_error_iff.mp refused
      rcases Document.moveBlock_eq_error_iff.mp edit with
        ⟨nowhere, rfl⟩ | ⟨⟨block, found⟩, uncountable, rfl⟩
      · exact .moveNowhere nowhere
      · exact .moveTooFar found uncountable
  | setKey index => exact refuses_of_setKey refused
  | drawings =>
      simp only [performWith] at refused
      split at refused
      · cases refused
      · cases refused
        exact isRefusal.elim
  | importScore score forceKey => exact refuses_of_importScore refused isRefusal
  | startCapture index source playReference =>
      obtain ⟨other, ⟨nowhere, rfl⟩ | ⟨block, found, notMelody, rfl⟩⟩ :=
        startCapture_eq_error_iff.mp refused
      · exact .recordNowhere other nowhere
      · exact .recordChords other found notMelody
  | runCapture =>
      obtain ⟨fault, rfl⟩ := runCapture_eq_error refused
      exact isRefusal.elim
  | startPlayback => exact refuses_of_startPlayback refused isRefusal

theorem performWith_of_refuses (refuses : Refuses session operation error) :
    (performWith aside operation session).2 = .error error ∧ error.IsRefusal := by
  cases refuses with
  | recordNowhere other nowhere =>
      exact ⟨startCapture_eq_error_iff.mpr ⟨other, .inl ⟨nowhere, rfl⟩⟩, trivial⟩
  | recordChords other found notMelody =>
      exact ⟨startCapture_eq_error_iff.mpr ⟨other, .inr ⟨_, found, notMelody, rfl⟩⟩, trivial⟩
  | removeNowhere many nowhere =>
      refine ⟨edited_eq_error_iff.mpr ⟨_, ?_, rfl⟩, trivial⟩
      rw [(sameText_unless_recording session).document]
      exact Document.removeBlock_eq_error_iff.mpr ⟨many, nowhere, rfl⟩
  | updateNowhere nowhere =>
      exact ⟨edited_eq_error_iff.mpr
        ⟨_, Document.updateBlock_eq_error_iff.mpr ⟨nowhere, rfl⟩, rfl⟩, trivial⟩
  | moveNowhere nowhere =>
      exact ⟨edited_eq_error_iff.mpr
        ⟨_, Document.moveBlock_eq_error_iff.mpr (.inl ⟨nowhere, rfl⟩), rfl⟩, trivial⟩
  | moveTooFar found uncountable =>
      have edit := Document.moveBlock_eq_error_iff.mpr (.inr ⟨⟨_, found⟩, uncountable, rfl⟩)
      exact ⟨edited_eq_error_iff.mpr ⟨_, edit, rfl⟩, trivial⟩
  | addUnknown unknown =>
      exact ⟨edited_eq_error_iff.mpr
        ⟨_, Document.addNamedBlock_eq_error_iff.mpr ⟨unknown, rfl⟩, rfl⟩, trivial⟩
  | setUnknownKey unknown => simp [performWith, setKey, Key.resolve, unknown, SessionError.IsRefusal]
  | importInUnknownKey own unknown =>
      exact ⟨importScore_eq_error_iff.mpr ⟨rfl, _, own, unknown, rfl⟩, trivial⟩
  | playWithoutScheduler silent => simp [performWith, startPlayback, silent, SessionError.IsRefusal]

/-! What a refusal leaves behind -/

/-- The session that a request is put to: one that ends a recording finds it ended. -/
def silencedBy (session : Session) (operation : Operation) : Session :=
  if operation.endsRecording && session.recordingBlock.isSome then session.stopCapture else session

theorem isUntouched_edited {edit : Except EditError Document}
    (refused : (session.edited edit).2 = .error error) :
    IsUntouched session (session.edited edit).1 := by
  cases edit with
  | ok document => cases refused
  | error refusal => exact isUntouched_refl session

theorem isUntouched_importScore {score : Score Amount} {forceKey : Bool}
    (refused : (session.importScore score forceKey).2 = .error error) :
    IsUntouched session (session.importScore score forceKey).1 := by
  unfold importScore at refused ⊢
  split at refused
  · exact isUntouched_refl session
  · exact isUntouched_refl session
  · cases refused
  · cases refused

theorem isUntouched_startCapture {index : Int} {source : Source (List Operation)}
    {playReference : Bool}
    (refused : (session.startCapture index source playReference).2 = .error error) :
    IsUntouched (if session.recordingBlock.isSome then session.stopCapture else session)
      (session.startCapture index source playReference).1 := by
  obtain ⟨other, cause⟩ := startCapture_eq_error_iff.mp refused
  rw [startCapture, if_neg other, (sameText_unless_recording session).document]
  rcases cause with ⟨nowhere, -⟩ | ⟨block, found, notMelody, -⟩
  · rw [nowhere]
    exact isUntouched_offered _ source none
  · rw [found]
    dsimp only
    rw [if_neg notMelody]
    exact isUntouched_offered _ source none

theorem isUntouched_of_refuses (refuses : Refuses session operation error) :
    IsUntouched (session.silencedBy operation) (performWith aside operation session).1 := by
  have refused : (performWith aside operation session).2 = .error error :=
    (performWith_of_refuses refuses).1
  cases refuses with
  | recordNowhere | recordChords => exact isUntouched_startCapture refused
  | removeNowhere => exact isUntouched_edited refused
  | updateNowhere | moveNowhere | moveTooFar | addUnknown => exact isUntouched_edited refused
  | setUnknownKey unknown => simp [performWith, setKey, Key.resolve, unknown]; rfl
  | importInUnknownKey => exact isUntouched_importScore refused
  | playWithoutScheduler silent => simp [performWith, startPlayback, silent]; rfl

theorem silencedBy_of_harmless
    (harmless : session.recordingBlock = none ∨ operation.endsRecording = false) :
    session.silencedBy operation = session := by
  rcases harmless with idle | keeps <;> simp [silencedBy, *]

theorem silencedBy_of_recording {block : Int} (recording : session.recordingBlock = some block)
    (ends : operation.endsRecording = true) :
    session.silencedBy operation = session.stopCapture := by
  simp [silencedBy, recording, ends]

end Performed

/-- A request is refused exactly for what `Refuses` lists. What is refused changes
nothing and asks nothing of the scheduler or of a source, but for a recording in
progress when the request was to record into another block or to remove one: that
recording has ended then, as if `stopCapture` had been asked for, and nothing else
has changed. -/
theorem refused_request_leaves_session (session : Session) (depth : Nat) (operation : Operation)
    (error : SessionError) :
    ((perform depth operation session).2 = .error error ∧ error.IsRefusal ↔
      Refuses session operation error) ∧
    (Refuses session operation error →
      let after := (perform depth operation session).1
      (session.recordingBlock = none ∨ operation.endsRecording = false →
        IsUntouched session after) ∧
      ∀ block, session.recordingBlock = some block → operation.endsRecording = true →
        IsUntouched session.stopCapture after ∧ after.recordingBlock = none ∧ after.held = none ∧
          SameText session after ∧ after.playback = session.playback) := by
  rw [perform_eq]
  refine ⟨⟨fun refused => refuses_of_performWith refused.1 refused.2, performWith_of_refuses⟩, ?_⟩
  intro refuses after
  have left : IsUntouched (session.silencedBy operation) after := isUntouched_of_refuses refuses
  constructor
  · intro harmless
    rwa [silencedBy_of_harmless harmless] at left
  · intro block recording ends
    rw [silencedBy_of_recording recording ends] at left
    have same := sameText_stopCapture session
    rw [stopCapture_eq] at left same
    refine ⟨by rwa [stopCapture_eq], ?_, ?_, ?_, ?_⟩
    all_goals rw [left]
    · rfl
    · rfl
    · exact ⟨same.document, same.sections, same.keyIndex⟩
    · rfl

/-- A melody with its chords; the melody is being recorded into. -/
def recordingBesideChords : Session :=
  let document : Document :=
    { blocks := [{ kind := .melody, content := "1" }, { kind := .chords, content := "C" }] }
  (perform 0 (.startCapture 0 { signals := [] } false) (ofDocument document false)).1

theorem refused_request_leaves_session_recording :
    recordingBesideChords.recordingBlock = some 0 ∧
      (perform 0 (.moveBlock 5 0) recordingBesideChords).2 = .error (.edit .noSuchBlock) ∧
      IsUntouched recordingBesideChords (perform 0 (.moveBlock 5 0) recordingBesideChords).1 := by
  have refuses : Refuses recordingBesideChords (.moveBlock 5 0) (.edit .noSuchBlock) :=
    .moveNowhere rfl
  obtain ⟨exactly, leaves⟩ :=
    refused_request_leaves_session recordingBesideChords 0 (.moveBlock 5 0) (.edit .noSuchBlock)
  exact ⟨rfl, (exactly.mpr refuses).1, (leaves refuses).1 (.inr rfl)⟩

/-- Recording into the chords is refused, but the recording of the melody has ended. -/
theorem refused_capture_ends_recording :
    let refused := perform 0 (.startCapture 1 { signals := [] } false) recordingBesideChords
    Occurs recordingBesideChords ∧ recordingBesideChords.recordingBlock = some 0 ∧
      refused.2 = .error .onlyMelody ∧ refused.1.recordingBlock = none ∧ refused.1.held = none :=
  ⟨.performed 0 _ (.opened _ false), rfl, rfl, rfl, rfl⟩

end Session

end Jianpu
