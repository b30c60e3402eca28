import Jianpu.Proofs.Session.Holding
import Jianpu.Proofs.Session.Target

/-! What a session shows is what its document says. The sections and the key of the
capture are read off the document in every state, no document runs out of blocks,
and what is refused or fails leaves all of it as it was. -/

set_option autoImplicit false

namespace Jianpu

open Number (Amount)
open Capture (CaptureFault Recorder Source)

/-- An operation loads a document by itself, or in an aside of the source that it is
to record from. -/
inductive Operation.Loads (document : Document) : Operation → Prop where
  | itself : Loads document (.loadDocument document)
  | aside {index : Int} {source : Source (List Operation)} {playReference : Bool}
      {operations : List Operation} {operation : Operation} :
      .aside operations ∈ source.signals → operation ∈ operations → Loads document operation →
      Loads document (.startCapture index source playReference)

/-- An operation that loads documents with blocks alone. -/
def Operation.LoadsBlocks (operation : Operation) : Prop :=
  ∀ document, operation.Loads document → document.blocks ≠ []

theorem Operation.LoadsBlocks.asides {index : Int} {source : Source (List Operation)}
    {playReference : Bool} (loads : LoadsBlocks (.startCapture index source playReference))
    {operations : List Operation} (among : .aside operations ∈ source.signals) :
    ∀ operation ∈ operations, operation.LoadsBlocks :=
  fun _ member document loaded => loads document (.aside among member loaded)

/-! Blocks -/

namespace Document

theorem blocks_ne_nil_of_kinds {before after : Document}
    (kinds : before.kinds.length ≤ after.kinds.length) (full : before.blocks ≠ []) :
    after.blocks ≠ [] := by
  intro empty
  have none : after.kinds.length = 0 := by simp [Document.kinds, empty]
  have some : 0 < before.kinds.length := by
    simpa [Document.kinds] using List.length_pos_iff.mpr full
  omega

theorem blocks_ne_nil_updateBlock {before after : Document} {index : Int} {content : String}
    (updated : before.updateBlock index content = .ok after) (full : before.blocks ≠ []) :
    after.blocks ≠ [] :=
  blocks_ne_nil_of_kinds (Nat.le_of_eq (congrArg List.length (kinds_updateBlock updated)).symm) full

theorem blocks_ne_nil_addBlock (document : Document) (kind : BlockKind) (content : String) :
    (document.addBlock kind content).blocks ≠ [] := by
  simp [addBlock]

theorem blocks_ne_nil_addNamedBlock {before after : Document} {kindName content : String}
    (added : before.addNamedBlock kindName content = .ok after) (full : before.blocks ≠ []) :
    after.blocks ≠ [] := by
  obtain ⟨kind, kinds⟩ := kinds_addNamedBlock added
  exact blocks_ne_nil_of_kinds (by simp [kinds]) full

theorem blocks_ne_nil_moveBlock {before after : Document} {index target : Int}
    (taken : before.moveBlock index target = .ok after) (full : before.blocks ≠ []) :
    after.blocks ≠ [] :=
  blocks_ne_nil_of_kinds (Nat.le_of_eq (kinds_moveBlock taken).1.symm) full

/-- The last block of a document is not removed. -/
theorem blocks_ne_nil_removeBlock {before after : Document} {index : Int}
    (removed : before.removeBlock index = .ok after) (full : before.blocks ≠ []) :
    after.blocks ≠ [] := by
  unfold removeBlock at removed
  split at removed
  · obtain rfl := Except.ok.inj removed
    exact full
  · rename_i several
    split at removed
    · cases removed
    · rename_i place _
      obtain rfl := Except.ok.inj removed
      have left := List.length_eraseIdx_of_lt place.isLt
      apply List.ne_nil_of_length_pos
      change 0 < (before.blocks.eraseIdx place).length
      omega

theorem blocks_ne_nil_appendToBlock {before after : Document} {index : Int} {token : String}
    (appended : before.appendToBlock index token = .ok after) (full : before.blocks ≠ []) :
    after.blocks ≠ [] := by
  unfold appendToBlock at appended
  split at appended
  · cases appended
  · exact blocks_ne_nil_updateBlock appended full

end Document

namespace Session

theorem blocks_ne_nil_edited {session : Session} (full : session.document.blocks ≠ [])
    {edit : Except EditError Document} (edits : ∀ document, edit = .ok document →
      document.blocks ≠ []) : (session.edited edit).1.document.blocks ≠ [] := by
  cases edit with
  | ok document => exact edits document rfl
  | error => exact full

theorem blocks_ne_nil_performWith {aside : List Operation → Session → Session}
    {operation : Operation} {session : Session} (instant : operation.IsInstant)
    (loads : operation.LoadsBlocks) (full : session.document.blocks ≠ []) :
    (performWith aside operation session).1.document.blocks ≠ [] := by
  cases operation with
  | loadDocument document => exact loads document .itself
  | updateBlock index content =>
      exact blocks_ne_nil_edited full fun _ updated =>
        Document.blocks_ne_nil_updateBlock updated full
  | addBlock kindName =>
      exact blocks_ne_nil_edited full fun _ added =>
        Document.blocks_ne_nil_addNamedBlock added full
  | removeBlock index =>
      have silent := (sameText_unless_recording session).document
      simp only [performWith, removeBlock]
      rw [← silent] at full
      exact blocks_ne_nil_edited full fun _ removed =>
        Document.blocks_ne_nil_removeBlock removed full
  | moveBlock index target =>
      exact blocks_ne_nil_edited full fun _ taken => Document.blocks_ne_nil_moveBlock taken full
  | setKey index =>
      simp only [performWith, setKey]
      split <;> exact full
  | setSettings settings => exact full
  | drawings =>
      simp only [performWith]
      split <;> exact full
  | importScore score forceKey =>
      simp only [performWith, importScore]
      split
      · exact full
      · exact full
      · exact full
      · exact Document.blocks_ne_nil_addBlock _ _ _
  | startCapture index source playReference =>
      exact (sameText_startCapture session index source playReference).document ▸ full
  | runCapture => exact instant.elim
  | stopCapture => exact (sameText_stopCapture session).document ▸ full
  | startPlayback => exact (sameText_startPlayback session).document ▸ full
  | stopPlayback => exact (sameText_stopPlayback session).document ▸ full

theorem blocks_ne_nil_appendCaptured {session : Session} (full : session.document.blocks ≠ [])
    (index : Int) (token : String) :
    (session.appendCaptured index token).1.document.blocks ≠ [] := by
  unfold appendCaptured
  split
  · exact full
  · split
    · rename_i appended
      exact Document.blocks_ne_nil_appendToBlock appended full
    · exact full

theorem blocks_ne_nil_deliver {session : Session} (full : session.document.blocks ≠ [])
    (aside : List Operation → Session → Session) (number : Nat) (target : Int)
    (frame : Capture.Frame Amount) :
    ((stage aside number).deliver target frame session).1.document.blocks ≠ [] := by
  rw [deliver_eq]
  dsimp only
  split
  · exact full
  · exact full
  · apply blocks_ne_nil_appendCaptured
    exact full

/-! Sources -/

/-- The asides of all recordings are permitted. -/
def HasPermitted (permits : Operation → Prop) (session : Session) : Prop :=
  ∀ (number : Nat) (recording : Recording) (operations : List Operation),
    session.recordings[number]? = some recording →
    .aside operations ∈ recording.source.signals → ∀ operation ∈ operations, permits operation

theorem HasPermitted.withRecorder {permits : Operation → Prop} {session after : Session}
    (permitted : HasPermitted permits session) {number : Nat} {recorder : Recorder}
    (recordings : after.recordings = (session.withRecorder number recorder).recordings) :
    HasPermitted permits after := by
  intro other recording operations found among
  rw [recordings, getElem?_withRecorder] at found
  split at found
  · obtain ⟨earlier, present, rfl⟩ := Option.map_eq_some_iff.mp found
    exact permitted other earlier operations present among
  · exact permitted other recording operations found among

theorem HasPermitted.turnover {permits : Operation → Prop} {operation : Operation}
    {before after : Session} (permitted : HasPermitted permits before)
    (turnover : Turnover operation before after)
    (asked : ∀ index source playReference, operation = .startCapture index source playReference →
      ∀ operations, .aside operations ∈ source.signals →
        ∀ operation ∈ operations, permits operation) : HasPermitted permits after := by
  intro number recording operations found among
  rcases Nat.lt_or_ge number before.recordings.length with inside | fresh
  · have earlier := List.getElem?_eq_getElem inside
    apply permitted number _ operations earlier
    by_cases holding : before.held = some number
    · rcases turnover.of_held holding earlier with ⟨-, same⟩ | ⟨-, stopped⟩
      · cases same.symm.trans found
        exact among
      · cases stopped.symm.trans found
        exact among
    · cases (turnover.of_gone holding earlier).2.symm.trans found
      exact among
  · obtain ⟨-, index, source, playReference, starts, rfl⟩ := turnover.of_new fresh found
    exact asked index source playReference starts operations among

/-- A session whose document has blocks, and that is to load such documents alone. -/
structure IsFilled (session : Session) : Prop where
  blocks : session.document.blocks ≠ []
  sources : HasPermitted Operation.LoadsBlocks session

theorem isKept_isFilled :
    IsKept IsOrderly Operation.LoadsBlocks (fun _ => True) IsFilled where
  permitted _ number recording operations filled := filled.sources number recording operations
  replied _ _ filled := ⟨filled.blocks, filled.sources⟩
  instant aside operation session instant loads orderly filled := by
    refine ⟨blocks_ne_nil_performWith instant loads filled.blocks, ?_⟩
    apply filled.sources.turnover (turnover_performWith instant orderly.marked)
    rintro index source playReference rfl operations among
    exact loads.asides among
  started session number _ filled := ⟨trivial, filled.blocks, filled.sources.withRecorder rfl⟩
  delivered aside number target frame session _ _ filled := by
    obtain ⟨-, recorder, -, -, recordings⟩ := recordings_deliver aside number target frame session
    exact ⟨blocks_ne_nil_deliver filled.blocks aside number target frame,
      filled.sources.withRecorder recordings⟩
  concluded aside number fault session _ _ filled := by
    obtain ⟨-, recordings⟩ := recordings_conclude aside number fault session
    exact ⟨(sameText_conclude session aside number fault).document ▸ filled.blocks,
      filled.sources.withRecorder recordings⟩

/-! Refusals -/

theorem sameText_edited {session : Session} {edit : Except EditError Document}
    {error : SessionError} (refused : (session.edited edit).2 = .error error) :
    SameText session (session.edited edit).1 := by
  cases edit with
  | ok document => cases refused
  | error => exact sameText_refl session

/-- An operation that is refused has changed nothing of the text. -/
theorem sameText_of_refused {aside : List Operation → Session → Session} {operation : Operation}
    {session : Session} (instant : operation.IsInstant) {error : SessionError}
    (refused : (performWith aside operation session).2 = .error error) :
    SameText session (performWith aside operation session).1 := by
  cases operation with
  | loadDocument | setSettings => cases refused
  | updateBlock | addBlock | moveBlock => exact sameText_edited refused
  | removeBlock index =>
      exact (sameText_unless_recording session).trans (sameText_edited refused)
  | setKey index =>
      simp only [performWith, setKey] at refused ⊢
      split at refused
      · exact sameText_refl session
      · cases refused
  | drawings =>
      simp only [performWith]
      split <;> exact sameText_refl session
  | importScore score forceKey =>
      simp only [performWith, importScore] at refused ⊢
      split at refused
      · exact sameText_refl session
      · exact sameText_refl session
      · exact ⟨rfl, rfl, rfl⟩
      · cases refused
  | startCapture index source playReference =>
      exact sameText_startCapture session index source playReference
  | runCapture => exact instant.elim
  | stopCapture => exact sameText_stopCapture session
  | startPlayback => exact sameText_startPlayback session
  | stopPlayback => exact sameText_stopPlayback session

theorem appendCaptured_of_failed {session : Session} {index : Int} {token : String}
    {fault : CaptureFault} (failed : (session.appendCaptured index token).2 = some fault) :
    (session.appendCaptured index token).1 = session := by
  unfold appendCaptured at failed ⊢
  by_cases past : (session.document.blocks.length : Int) ≤ index
  · rw [if_pos past]
  · rw [if_neg past] at failed ⊢
    split at failed
    · cases failed
    · rfl

/-- A detection that a run fails at has changed nothing of the text. -/
theorem sameText_of_failed {aside : List Operation → Session → Session} {number : Nat}
    {target : Int} {frame : Capture.Frame Amount} {session : Session} {fault : CaptureFault}
    (failed : ((stage aside number).deliver target frame session).2 = some fault) :
    SameText session ((stage aside number).deliver target frame session).1 := by
  rw [deliver_eq] at failed ⊢
  dsimp only at failed ⊢
  split
  · exact ⟨rfl, rfl, rfl⟩
  · exact ⟨rfl, rfl, rfl⟩
  · rename_i token heard
    rw [heard] at failed
    rw [appendCaptured_of_failed failed]
    exact ⟨rfl, rfl, rfl⟩

theorem drawings?_eq {session : Session} (coherent : IsCoherent session) :
    session.drawings? = Layout.drawings? session.document := by
  rw [drawings?, coherent.sections]
  rfl

/-- In every state that a session comes to from a document with blocks, as long as it
loads no other documents, the sections, the key of the capture and the drawings are
those of its document, which has blocks. An operation that is over at once and is
refused leaves document, sections and key as they are, and so does a detection that
a run fails at. -/
theorem derived_state_follows_document {document : Document} (full : document.blocks ≠ [])
    {hasScheduler : Bool} {logarithm : Pitch.Logarithm} {session : Session}
    (comes : ComesTo Operation.LoadsBlocks (ofDocument document hasScheduler logarithm) session) :
    session.sections = session.document.sections ∧
    session.cell.keyIndex = some session.document.keyIndex ∧
    session.document.blocks ≠ [] ∧
    session.drawings? = Layout.drawings? session.document ∧
    (∀ (depth : Nat) (operation : Operation) (error : SessionError), operation.IsInstant →
      (perform depth operation session).2 = .error error →
      SameText session (perform depth operation session).1) ∧
    (∀ (depth number : Nat) (target : Int) (frame : Capture.Frame Amount) (fault : CaptureFault),
      ((stage (asides depth) number).deliver target frame session).2 = some fault →
      SameText session ((stage (asides depth) number).deliver target frame session).1) := by
  have unloaded : HasPermitted Operation.LoadsBlocks
      (ofDocument document hasScheduler logarithm) := by
    intro number recording operations found
    simp [ofDocument] at found
  have filled := ((isKept_isFilled.joined isInvariant_isOrderly).comesTo comes
    ⟨isInvariant_isOrderly.opened document hasScheduler logarithm, full, unloaded⟩).2
  have coherent :=
    isInvariant_isCoherent.occurs (comes.occurs (.opened document hasScheduler logarithm))
  refine ⟨coherent.sections, coherent.keyIndex, filled.blocks, drawings?_eq coherent, ?_, ?_⟩
  · intro depth operation error instant refused
    rw [perform_eq] at refused ⊢
    exact sameText_of_refused instant refused
  · intro depth number target frame fault
    exact sameText_of_failed

/-- While a recording awaits its first detection a document of chords is loaded; the
block that is asked for after that has no place in it. -/
theorem derived_state_follows_document_loaded_midway :
    let chords : Document := { blocks := [{ kind := .chords, content := "C" }] }
    let source : Source (List Operation) := { signals := [.aside [.loadDocument chords]] }
    let recording := (perform 0 (.startCapture 0 source false) (ofDocument {} false)).1
    let session := (perform 1 .runCapture recording).1
    let refused := perform 0 (.updateBlock 1 "5") session
    session.document = chords ∧ session.sections = chords.sections ∧
      refused.2 = .error (.edit .noSuchBlock) ∧ SameText session refused.1 := by
  intro chords source recording session refused
  have begins : Operation.LoadsBlocks (.startCapture 0 source false) := by
    intro document loads
    cases loads with
    | aside among member loaded =>
        simp only [source, List.mem_singleton, Capture.Signal.aside.injEq] at among
        subst among
        rw [List.mem_singleton] at member
        subst member
        cases loaded
        exact List.cons_ne_nil _ _
  have runs : Operation.LoadsBlocks .runCapture := by
    intro document loads
    cases loads
  have comes : ComesTo Operation.LoadsBlocks (ofDocument {} false) session :=
    .performed 1 .runCapture runs (.performed 0 _ begins .refl)
  have full : ({} : Document).blocks ≠ [] := by simp
  obtain ⟨sections, -, -, -, refusals, -⟩ := derived_state_follows_document full comes
  have loaded : session.document = chords := rfl
  exact ⟨loaded, sections, rfl, refusals 0 (.updateBlock 1 "5") _ trivial rfl⟩

end Session

end Jianpu
