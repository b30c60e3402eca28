import Jianpu.Proofs.Session.Sounding

/-! What is derived from the document follows it: the sections are those of its
blocks, and the cell of the capture holds its key. Only edits touch either, and
they read both anew. -/

set_option autoImplicit false

namespace Jianpu.Session

open Number (Amount)
open Capture (CaptureFault Source)

/-- A session whose sections and capture key are those of its document. -/
structure IsCoherent (session : Session) : Prop where
  sections : session.sections = session.document.sections
  keyIndex : session.cell.keyIndex = some session.document.keyIndex

theorem IsCoherent.key {session : Session} (coherent : IsCoherent session) :
    session.cell.key = session.document.key := by
  rw [Capture.Cell.key, coherent.keyIndex]
  rfl

theorem isCoherent_adopt (session : Session) (document : Document) :
    IsCoherent (session.adopt document) :=
  ⟨rfl, rfl⟩

theorem IsCoherent.adopt_document {session : Session} (coherent : IsCoherent session) :
    session.adopt session.document = session := by
  obtain ⟨sections, keyIndex⟩ := coherent
  rw [adopt, ← sections, ← keyIndex]

theorem IsCoherent.edited {session : Session} (coherent : IsCoherent session)
    (edit : Except EditError Document) : IsCoherent (session.edited edit).1 := by
  cases edit with
  | ok document => exact isCoherent_adopt session document
  | error => exact coherent

/-- Two sessions with one document, read in the same way. -/
structure SameText (before after : Session) : Prop where
  document : after.document = before.document
  sections : after.sections = before.sections
  keyIndex : after.cell.keyIndex = before.cell.keyIndex

theorem SameText.trans {first second third : Session} (one : SameText first second)
    (two : SameText second third) : SameText first third where
  document := two.document.trans one.document
  sections := two.sections.trans one.sections
  keyIndex := two.keyIndex.trans one.keyIndex

theorem SameText.coherent {before after : Session} (same : SameText before after)
    (coherent : IsCoherent before) : IsCoherent after := by
  constructor
  · rw [same.sections, same.document]
    exact coherent.sections
  · rw [same.keyIndex, same.document]
    exact coherent.keyIndex

section

variable (session : Session)

theorem sameText_refl : SameText session session :=
  ⟨rfl, rfl, rfl⟩

theorem sameText_stopCapture : SameText session session.stopCapture := by
  rw [stopCapture_eq]
  exact ⟨rfl, rfl, rfl⟩

theorem sameText_stopPlayback : SameText session session.stopPlayback := by
  rw [stopPlayback_eq]
  exact ⟨rfl, rfl, rfl⟩

theorem sameText_unless_recording :
    SameText session (if session.recordingBlock.isSome then session.stopCapture else session) := by
  split
  · exact sameText_stopCapture session
  · exact sameText_refl session

theorem sameText_beginCapture (index : Int) (source : Source (List Operation))
    (playReference : Bool) :
    SameText session (session.beginCapture index source playReference) := by
  simp only [beginCapture, offered]
  rw [stopCadence_eq, stopPlayback_eq]
  split <;> exact ⟨rfl, rfl, rfl⟩

theorem sameText_startCapture (index : Int) (source : Source (List Operation))
    (playReference : Bool) :
    SameText session (session.startCapture index source playReference).1 := by
  have silent := sameText_unless_recording session
  unfold startCapture
  dsimp only
  generalize (if session.recordingBlock.isSome then session.stopCapture else session) = quiet
    at silent
  split
  · exact ⟨silent.document, silent.sections, silent.keyIndex⟩
  · split
    · exact ⟨silent.document, silent.sections, silent.keyIndex⟩
    · split
      · exact silent.trans (sameText_beginCapture quiet index source playReference)
      · exact ⟨silent.document, silent.sections, silent.keyIndex⟩

theorem sameText_startPlayback : SameText session session.startPlayback.1 := by
  have same := (sameText_stopCapture session).trans (sameText_stopPlayback session.stopCapture)
  unfold startPlayback
  generalize session.stopCapture.stopPlayback = quiet at same
  split
  · exact sameText_refl session
  · dsimp only
    split
    · exact same
    · split
      · exact same
      · exact ⟨same.document, same.sections, same.keyIndex⟩

theorem sameText_report (number : Nat) (outcome : Except CaptureFault (List String)) :
    SameText session (session.report number outcome).1 := by
  obtain ⟨captureError, status, told⟩ := report_eq session number outcome
  rw [told]
  exact ⟨rfl, rfl, rfl⟩

theorem sameText_conclude (aside : List Operation → Session → Session) (number : Nat)
    (fault : Option CaptureFault) : SameText session (session.conclude aside number fault).1 := by
  have told := sameText_report ((stage aside number).stop session) number
    ((stage aside number).outcome ((stage aside number).stop session) fault)
  unfold conclude
  dsimp only
  split
  · exact ⟨told.document, told.sections, told.keyIndex⟩
  · exact ⟨told.document, told.sections, told.keyIndex⟩

end

theorem IsCoherent.performWith {aside : List Operation → Session → Session}
    {operation : Operation} {session : Session} (instant : operation.IsInstant)
    (coherent : IsCoherent session) : IsCoherent (performWith aside operation session).1 := by
  cases operation with
  | loadDocument document => exact isCoherent_adopt _ document
  | updateBlock | addBlock | moveBlock => exact coherent.edited _
  | removeBlock index =>
      exact ((sameText_unless_recording session).coherent coherent).edited _
  | setKey index =>
      simp only [Session.performWith, setKey]
      split
      · exact coherent
      · exact isCoherent_adopt session _
  | setSettings settings => exact isCoherent_adopt session _
  | drawings =>
      simp only [Session.performWith]
      split <;> exact coherent
  | importScore score forceKey =>
      simp only [Session.performWith, importScore]
      split
      · exact coherent
      · exact coherent
      · exact ⟨coherent.sections, coherent.keyIndex⟩
      · exact isCoherent_adopt session _
  | startCapture index source playReference =>
      exact (sameText_startCapture session index source playReference).coherent coherent
  | runCapture => exact instant.elim
  | stopCapture => exact (sameText_stopCapture session).coherent coherent
  | startPlayback => exact (sameText_startPlayback session).coherent coherent
  | stopPlayback => exact (sameText_stopPlayback session).coherent coherent

theorem IsCoherent.appendCaptured {session : Session} (coherent : IsCoherent session)
    (index : Int) (token : String) : IsCoherent (session.appendCaptured index token).1 := by
  unfold Session.appendCaptured
  split
  · exact coherent
  · split
    · exact isCoherent_adopt session _
    · exact coherent

theorem IsCoherent.deliver {session : Session} (coherent : IsCoherent session)
    (aside : List Operation → Session → Session) (number : Nat) (target : Int)
    (frame : Capture.Frame Amount) :
    IsCoherent ((stage aside number).deliver target frame session).1 := by
  rw [deliver_eq]
  dsimp only
  split
  · exact ⟨coherent.sections, coherent.keyIndex⟩
  · exact ⟨coherent.sections, coherent.keyIndex⟩
  · apply IsCoherent.appendCaptured
    exact ⟨coherent.sections, coherent.keyIndex⟩

theorem isInvariant_isCoherent : IsInvariant IsCoherent where
  opened _ _ _ := ⟨rfl, rfl⟩
  replied _ _ coherent := ⟨coherent.sections, coherent.keyIndex⟩
  instant _ _ _ instant coherent := coherent.performWith instant
  started _ _ _ coherent := ⟨coherent.sections, coherent.keyIndex⟩
  delivered aside number target frame _ coherent := coherent.deliver aside number target frame
  concluded aside number fault session coherent :=
    (sameText_conclude session aside number fault).coherent coherent

end Jianpu.Session
