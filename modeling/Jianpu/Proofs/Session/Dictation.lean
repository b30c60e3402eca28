import Jianpu.Proofs.Capture.Answers
import Jianpu.Proofs.Notation.Appending
import Jianpu.Proofs.Session.Target

/-! What a capture writes. Each pitch that the filter lets through and the scale
of the current key has is one more note of the block, and nothing else of the
document changes but by edits. -/

set_option autoImplicit false

namespace Jianpu

open Number (Amount)
open Capture (CaptureFault Filter Recorder Signal Source)
open Notation (Melody Note Section)

/-! Edits -/

/-- The edits that leave every block at its place, as one of its kind. -/
def Operation.IsEdit : Operation → Prop
  | .updateBlock .. | .addBlock _ | .setKey _ | .setSettings _ => True
  | _ => False

/-- What an edit makes of a document; one that is refused leaves it as it is. -/
def Operation.edit (operation : Operation) (document : Document) : Document :=
  match operation with
  | .updateBlock index content => (document.updateBlock index content).toOption.getD document
  | .addBlock kindName => (document.addNamedBlock kindName "").toOption.getD document
  | .setKey index => if (Key.at? index).isSome then document.setKey index else document
  | .setSettings settings => document.setSettings settings
  | _ => document

theorem Operation.kinds_edit (operation : Operation) (document : Document) :
    document.kinds <+: (operation.edit document).kinds := by
  cases operation with
  | updateBlock index content =>
      simp only [edit]
      cases updated : document.updateBlock index content with
      | error => exact List.prefix_rfl
      | ok after => exact (Document.kinds_updateBlock updated) ▸ List.prefix_rfl
  | addBlock kindName =>
      simp only [edit]
      cases added : document.addNamedBlock kindName "" with
      | error => exact List.prefix_rfl
      | ok after =>
          obtain ⟨kind, longer⟩ := Document.kinds_addNamedBlock added
          exact ⟨[kind], longer.symm⟩
  | setKey index =>
      simp only [edit]
      split <;> exact List.prefix_rfl
  | _ => exact List.prefix_rfl

namespace Session

theorem edited_edit {session : Session} (coherent : IsCoherent session)
    (edit : Except EditError Document) :
    (session.edited edit).1 = session.adopt (edit.toOption.getD session.document) := by
  cases edit with
  | ok document => rfl
  | error => exact coherent.adopt_document.symm

theorem perform_edit {session : Session} (coherent : IsCoherent session) {operation : Operation}
    (isEdit : operation.IsEdit) (depth : Nat) :
    (perform depth operation session).1 = session.adopt (operation.edit session.document) := by
  rw [perform_eq]
  cases operation with
  | updateBlock | addBlock => exact edited_edit coherent _
  | setKey index =>
      simp only [performWith, setKey, Key.resolve, Operation.edit]
      cases Key.at? index with
      | none => exact coherent.adopt_document.symm
      | some key => rfl
  | setSettings settings => rfl
  | _ => exact isEdit.elim

end Session

/-! Notes -/

/-- A document that has one more note in a block, of one beat, and is the same
otherwise. -/
structure NoteAdded (place : Nat) (pitch : Int) (token : String) (before after : Document) :
    Prop where
  title : after.title = before.title
  album : after.album = before.album
  keyIndex : after.keyIndex = before.keyIndex
  tempo : after.tempo = before.tempo
  settings : after.settings = before.settings
  others : ∀ other, other ≠ place → after.blocks[other]? = before.blocks[other]?
  added : ∃ (old new : Melody Float) (oldText newText : String) (note : Note Float),
    before.sections[place]? = some (.melody old oldText) ∧
      after.sections[place]? = some (.melody new newText) ∧
      new.events = old.events ++ [.note note] ∧
      note.pitch = pitch ∧ note.duration = 1 ∧ note.source = token

/-- What becomes of a document while signals are heard: the tokens that are written
to the block at a place, the fault that it ends on if any, and the document then. -/
inductive Dictates (logarithm : Pitch.Logarithm) (place : Nat) : Filter.State Amount → Document →
    List (Signal (List Operation)) → List String → Option CaptureFault → Document → Prop where
  | ended {memory : Filter.State Amount} {document : Document} :
      Dictates logarithm place memory document [] [] none document
  | failed {memory : Filter.State Amount} {document : Document} {fault : CaptureFault}
      {rest : List (Signal (List Operation))} :
      Dictates logarithm place memory document (.failure fault :: rest) [] (some fault) document
  | unheard {memory after : Filter.State Amount} {document : Document}
      {frame : Capture.Frame Amount} {fault : Number.Fault}
      {rest : List (Signal (List Operation))} :
      Filter.standard.hear (Pitch.ofAmount logarithm) memory frame = (after, .error fault) →
      Dictates logarithm place memory document (.frame frame :: rest) [] (some (.number fault))
        document
  | edited {memory : Filter.State Amount} {document last : Document} {edits : List Operation}
      {rest : List (Signal (List Operation))} {tokens : List String} {fault : Option CaptureFault} :
      Dictates logarithm place memory
        (edits.foldl (fun document edit => edit.edit document) document) rest tokens fault last →
      Dictates logarithm place memory document (.aside edits :: rest) tokens fault last
  | silent {memory after : Filter.State Amount} {document last : Document}
      {frame : Capture.Frame Amount} {rest : List (Signal (List Operation))} {tokens : List String}
      {fault : Option CaptureFault} :
      Filter.standard.hear (Pitch.ofAmount logarithm) memory frame = (after, .ok none) →
      Dictates logarithm place after document rest tokens fault last →
      Dictates logarithm place memory document (.frame frame :: rest) tokens fault last
  | chromatic {memory after : Filter.State Amount} {document last : Document}
      {frame : Capture.Frame Amount} {pitch : Int} {rest : List (Signal (List Operation))}
      {tokens : List String} {fault : Option CaptureFault} :
      Filter.standard.hear (Pitch.ofAmount logarithm) memory frame = (after, .ok (some pitch)) →
      ¬Pitch.IsDiatonic document.key pitch →
      Dictates logarithm place after document rest tokens fault last →
      Dictates logarithm place memory document (.frame frame :: rest) tokens fault last
  | written {memory after : Filter.State Amount} {document added last : Document}
      {frame : Capture.Frame Amount} {pitch : Int} {token : String}
      {rest : List (Signal (List Operation))} {tokens : List String}
      {fault : Option CaptureFault} :
      Filter.standard.hear (Pitch.ofAmount logarithm) memory frame = (after, .ok (some pitch)) →
      Pitch.IsDiatonic document.key pitch →
      NoteAdded place pitch token document added →
      Dictates logarithm place after added rest tokens fault last →
      Dictates logarithm place memory document (.frame frame :: rest) (token :: tokens) fault last

namespace Dictates

variable {logarithm : Pitch.Logarithm} {place : Nat} {memory after : Filter.State Amount}
  {document last : Document} {frame : Capture.Frame Amount} {rest : List (Signal (List Operation))} {tokens : List String}
  {fault : Option CaptureFault}
  (dictates : Dictates logarithm place memory document (.frame frame :: rest) tokens fault last)

include dictates

theorem of_silent
    (silent : Filter.standard.hear (Pitch.ofAmount logarithm) memory frame = (after, .ok none)) :
    Dictates logarithm place after document rest tokens fault last := by
  cases dictates with
  | silent hears dictates =>
      cases hears.symm.trans silent
      exact dictates
  | unheard hears | chromatic hears | written hears => cases hears.symm.trans silent

theorem of_diatonic {pitch : Int}
    (counts : Filter.standard.hear (Pitch.ofAmount logarithm) memory frame =
      (after, .ok (some pitch)))
    (diatonic : Pitch.IsDiatonic document.key pitch) :
    ∃ token others added, tokens = token :: others ∧ NoteAdded place pitch token document added ∧
      Dictates logarithm place after added rest others fault last := by
  cases dictates with
  | written hears _ added dictates =>
      cases hears.symm.trans counts
      exact ⟨_, _, _, rfl, added, dictates⟩
  | chromatic hears chromatic =>
      cases hears.symm.trans counts
      exact absurd diatonic chromatic
  | unheard hears | silent hears => cases hears.symm.trans counts

end Dictates

theorem Document.melody_of_kinds {document : Document} {place : Nat}
    (melody : document.kinds[place]? = some .melody) :
    ∃ (inside : place < document.blocks.length) (content : String),
      document.blocks[place] = ⟨.melody, content⟩ := by
  rw [kinds, List.getElem?_map] at melody
  obtain ⟨block, found, kind⟩ := Option.map_eq_some_iff.mp melody
  obtain ⟨inside, same⟩ := List.getElem?_eq_some_iff.mp found
  exact ⟨inside, block.content, by rw [same, ← kind]⟩

theorem noteAdded_appendToBlock {document : Document} {place : Nat} {pitch : Int} {token : String}
    (melody : document.kinds[place]? = some .melody)
    (written : Pitch.captureToken? document.key pitch = some token) :
    ∃ after, document.appendToBlock place token = .ok after ∧ after.kinds = document.kinds ∧
      NoteAdded place pitch token document after := by
  obtain ⟨inside, content, block⟩ := Document.melody_of_kinds melody
  have found := position?_natCast inside
  have appends : document.appendToBlock place token = .ok
      { document with
        blocks := document.blocks.set place ⟨.melody, Document.appended content token⟩ } := by
    simp only [Document.appendToBlock, Document.block?, found, Option.map_some,
      Document.updateBlock]
    simp [block]
  have updates : document.updateBlock place (Document.appended content token) = .ok
      { document with
        blocks := document.blocks.set place ⟨.melody, Document.appended content token⟩ } := by
    simp only [Document.updateBlock, found]
    simp [block]
  refine ⟨_, appends, Document.kinds_updateBlock updates, rfl, rfl, rfl, rfl, rfl, ?_, ?_⟩
  · intro other elsewhere
    exact List.getElem?_set_ne elsewhere.symm
  · obtain ⟨note, sounding, length, source, events⟩ :=
      Notation.eventsOf_appended (α := Float) written content
    refine ⟨Melody.ofText document.key content,
      Melody.ofText document.key (Document.appended content token), content,
      Document.appended content token, note, ?_, ?_, events, sounding, length, source⟩
    · simp only [Document.sections, List.getElem?_map, List.getElem?_eq_getElem inside, block,
        Option.map_some, Block.meaning]
    · simp only [Document.sections, List.getElem?_map, List.getElem?_set_self inside,
        Option.map_some, Block.meaning, Document.key]

/-! Runs -/

namespace Session

/-- A session that holds a recording into a block of melody, in a given state. -/
structure IsTaking (session : Session) (number place : Nat) (recorder : Recorder) : Prop where
  held : session.held = some number
  present : number < session.recordings.length
  recorder : session.recorderOf number = recorder
  block : session.recordingBlock = some place
  melody : session.document.kinds[place]? = some .melody
  coherent : session.IsCoherent

namespace IsTaking

variable {session : Session} {number place : Nat} {recorder : Recorder}
  (taking : IsTaking session number place recorder)

include taking

theorem adopt {document : Document} (kept : session.document.kinds <+: document.kinds) :
    IsTaking (session.adopt document) number place recorder := by
  refine ⟨taking.held, taking.present, taking.recorder, taking.block, ?_,
    isCoherent_adopt session document⟩
  obtain ⟨further, extended⟩ := kept
  have standing := (List.getElem?_eq_some_iff.mp taking.melody).1
  show document.kinds[place]? = some .melody
  rw [← extended, List.getElem?_append_left standing, taking.melody]

theorem withRecorder (changed : Recorder) :
    IsTaking (session.withRecorder number changed) number place changed := by
  refine ⟨taking.held, ?_, ?_, taking.block, taking.melody, taking.coherent.sections,
    taking.coherent.keyIndex⟩
  · simpa [Session.withRecorder] using taking.present
  · rw [recorderOf_withRecorder, if_pos ⟨rfl, taking.present⟩]

theorem shown (heard : Recorder.Hearing) :
    IsTaking (session.shown number heard) number place heard.recorder := by
  obtain ⟨held, present, same, block, melody, coherent⟩ := taking.withRecorder heard.recorder
  exact ⟨held, present, same, block, melody, coherent.sections, coherent.keyIndex⟩

/-- A token for a pitch of the scale is one more note of the recorded block. -/
theorem captured {pitch : Int} {token : String}
    (written : Pitch.captureToken? session.document.key pitch = some token) :
    (session.appendCaptured place token).2 = none ∧
      NoteAdded place pitch token session.document
        (session.appendCaptured place token).1.document ∧
      IsTaking (session.appendCaptured place token).1 number place recorder := by
  obtain ⟨inside, -⟩ := Document.melody_of_kinds taking.melody
  obtain ⟨added, appends, kinds, noteAdded⟩ := noteAdded_appendToBlock taking.melody written
  have standing : ¬(session.document.blocks.length : Int) ≤ place := by omega
  rw [Session.appendCaptured, if_neg standing, appends]
  exact ⟨rfl, noteAdded, taking.adopt (kinds ▸ List.prefix_rfl)⟩

theorem noted (replies : List SessionReply) :
    IsTaking { session with journal := { session.journal with replies } } number place recorder :=
  ⟨taking.held, taking.present, taking.recorder, taking.block, taking.melody,
    taking.coherent.sections, taking.coherent.keyIndex⟩

theorem note_edit (depth : Nat) {edit : Operation} (isEdit : edit.IsEdit) :
    IsTaking (note (perform depth) session edit) number place recorder ∧
      (note (perform depth) session edit).document = edit.edit session.document := by
  have performed := perform_edit taking.coherent isEdit depth
  have taken : IsTaking (perform depth edit session).1 number place recorder := by
    rw [performed]
    exact taking.adopt (edit.kinds_edit session.document)
  refine ⟨taken.noted _, ?_⟩
  show (perform depth edit session).1.document = _
  rw [performed]
  rfl

theorem asides (depth : Nat) {edits : List Operation}
    (areEdits : ∀ operation ∈ edits, operation.IsEdit) :
    IsTaking (Session.asides (depth + 1) edits session) number place recorder ∧
      (Session.asides (depth + 1) edits session).document =
        edits.foldl (fun document edit => edit.edit document) session.document := by
  induction edits generalizing session with
  | nil => exact ⟨taking, rfl⟩
  | cons edit edits ih =>
      obtain ⟨taken, made⟩ := taking.note_edit depth (areEdits edit List.mem_cons_self)
      obtain ⟨takenLast, last⟩ :=
        ih taken fun other member => areEdits other (List.mem_cons_of_mem edit member)
      refine ⟨takenLast, ?_⟩
      rw [List.foldl_cons, ← made]
      exact last

end IsTaking

/-- A recorder that takes signals with the filter of live capture. -/
def taker (logarithm : Pitch.Logarithm) (memory : Filter.State Amount) (committed : List String) :
    Recorder :=
  { logarithm, memory, active := true, committed }

variable {logarithm : Pitch.Logarithm}

theorem hear_taker {memory after : Filter.State Amount} {frame : Capture.Frame Amount}
    {counted : Except Number.Fault (Option Int)}
    (heard : Filter.standard.hear (Pitch.ofAmount logarithm) memory frame = (after, counted))
    (committed : List String) (key : Key) :
    ((taker logarithm memory committed).hear key frame).recorder = taker logarithm after committed ∧
      ((taker logarithm memory committed).hear key frame).token =
        counted.map fun pitch => pitch.bind (Pitch.captureToken? key) := by
  simp [Recorder.hear, taker, heard]

section Await

variable {number place : Nat} {source : Source (List Operation)}
  (aside : List Operation → Session → Session)

theorem IsTaking.exhausted {session : Session} {memory : Filter.State Amount}
    {committed : List String}
    (taking : IsTaking session number place (taker logarithm memory committed)) :
    (stage aside number).exhausted source session = false := by
  have unclosed : ((stage aside number).recorder session).closings = 0 := by
    show (session.recorderOf number).closings = 0
    rw [taking.recorder]
    rfl
  simp [Capture.Stage.exhausted, unclosed]

theorem IsTaking.target? {session : Session} {memory : Filter.State Amount}
    {committed : List String}
    (taking : IsTaking session number place (taker logarithm memory committed)) :
    (stage aside number).target? session = some (place : Int) := by
  have active : ((stage aside number).recorder session).active = true := by
    show (session.recorderOf number).active = true
    rw [taking.recorder]
    rfl
  rw [Capture.Stage.target?, if_pos active]
  exact taking.block

section Turn

variable {session delivered : Session} {memory after : Filter.State Amount}
  {committed written : List String} {frame : Capture.Frame Amount}
  {rest : List (Signal (List Operation))}
  (taking : IsTaking session number place (taker logarithm memory committed))

include taking

/-- After a detection without a fault the capture goes on. -/
theorem IsTaking.await_frame
    (delivers : (stage aside number).deliver place frame session = (delivered, none))
    (taken : IsTaking delivered number place (taker logarithm after written)) :
    (stage aside number).await source place (.frame frame :: rest) session =
      (stage aside number).await source place rest delivered := by
  have goesOn : (stage aside number).exhausted source session = false := taking.exhausted aside
  have next : (stage aside number).target? delivered = some (place : Int) := taken.target? aside
  rw [Capture.Stage.await, goesOn, delivers]
  simp only [Bool.false_eq_true, ↓reduceIte, next]

theorem IsTaking.await_frame_of_fault {fault : CaptureFault}
    (delivers : (stage aside number).deliver place frame session = (delivered, some fault)) :
    (stage aside number).await source place (.frame frame :: rest) session =
      (delivered, some fault) := by
  have goesOn : (stage aside number).exhausted source session = false := taking.exhausted aside
  rw [Capture.Stage.await, goesOn, delivers]
  rfl

end Turn

/-- What comes of a detection: the filter takes it in, and a pitch of the scale
that counts is written. -/
theorem IsTaking.deliver {session : Session} {memory after : Filter.State Amount}
    {committed : List String}
    (taking : IsTaking session number place (taker logarithm memory committed))
    {frame : Capture.Frame Amount} {counted : Except Number.Fault (Option Int)}
    (heard : Filter.standard.hear (Pitch.ofAmount logarithm) memory frame = (after, counted)) :
    let delivered := (stage aside number).deliver place frame session
    match counted with
    | .error fault =>
        delivered.2 = some (.number fault) ∧ delivered.1.document = session.document ∧
          IsTaking delivered.1 number place (taker logarithm after committed)
    | .ok none =>
        delivered.2 = none ∧ delivered.1.document = session.document ∧
          IsTaking delivered.1 number place (taker logarithm after committed)
    | .ok (some pitch) =>
        delivered.2 = none ∧
          (¬Pitch.IsDiatonic session.document.key pitch ∧
              delivered.1.document = session.document ∧
              IsTaking delivered.1 number place (taker logarithm after committed) ∨
            Pitch.IsDiatonic session.document.key pitch ∧
              ∃ token, NoteAdded place pitch token session.document delivered.1.document ∧
                IsTaking delivered.1 number place
                  (taker logarithm after (committed ++ [token]))) := by
  obtain ⟨recorder, token⟩ := hear_taker heard committed session.document.key
  have shown := taking.shown ((taker logarithm memory committed).hear session.document.key frame)
  rw [recorder] at shown
  rw [deliver_eq, taking.recorder, taking.coherent.key]
  dsimp only
  cases counted with
  | error fault =>
      have failed : ((taker logarithm memory committed).hear session.document.key frame).token =
          .error fault := token
      rw [failed]
      exact ⟨rfl, rfl, shown⟩
  | ok counted =>
      have counts : ((taker logarithm memory committed).hear session.document.key frame).token =
          .ok (counted.bind (Pitch.captureToken? session.document.key)) := token
      rw [counts]
      cases counted with
      | none => exact ⟨rfl, rfl, shown⟩
      | some pitch =>
          rw [Option.bind_some]
          cases written : Pitch.captureToken? session.document.key pitch with
          | none =>
              have chromatic : ¬Pitch.IsDiatonic session.document.key pitch := by
                rw [← Pitch.isSome_captureToken?_iff, written]
                nofun
              exact ⟨rfl, .inl ⟨chromatic, rfl, shown⟩⟩
          | some token =>
              have diatonic : Pitch.IsDiatonic session.document.key pitch := by
                rw [← Pitch.isSome_captureToken?_iff, written]
                rfl
              have noted := shown.withRecorder (taker logarithm after (committed ++ [token]))
              rw [recorder]
              obtain ⟨noFault, added, taken⟩ := noted.captured written
              exact ⟨noFault, .inr ⟨diatonic, token, added, taken⟩⟩

end Await

/-- While edits are made aside, a capture writes what is heard until the source
ends or fails. -/
theorem await_dictates {number place : Nat} {source : Source (List Operation)} (depth : Nat)
    {signals : List (Signal (List Operation))}
    (areEdits : ∀ edits, .aside edits ∈ signals → ∀ operation ∈ edits, operation.IsEdit)
    {session : Session} {memory : Filter.State Amount} {committed : List String}
    (taking : IsTaking session number place (taker logarithm memory committed)) :
    let consumed := (stage (asides (depth + 1)) number).await source place signals session
    ∃ tokens after, Dictates logarithm place memory session.document signals tokens consumed.2
        consumed.1.document ∧
      IsTaking consumed.1 number place (taker logarithm after (committed ++ tokens)) := by
  -- The filter's memory and what has been written change from signal to signal.
  induction signals generalizing session memory committed with
  | nil => exact ⟨[], memory, .ended, (List.append_nil committed).symm ▸ taking⟩
  | cons signal rest ih =>
      have restEdits : ∀ edits, .aside edits ∈ rest → ∀ operation ∈ edits, operation.IsEdit :=
        fun edits member => areEdits edits (List.mem_cons_of_mem signal member)
      cases signal with
      | aside edits =>
          obtain ⟨taken, made⟩ := taking.asides depth (areEdits edits List.mem_cons_self)
          obtain ⟨tokens, after, dictates, takenLast⟩ := ih restEdits taken
          rw [made] at dictates
          exact ⟨tokens, after, .edited dictates, takenLast⟩
      | failure fault =>
          have goesOn : (stage (asides (depth + 1)) number).exhausted source session = false :=
            taking.exhausted _
          rw [Capture.Stage.await, goesOn]
          exact ⟨[], memory, .failed, (List.append_nil committed).symm ▸ taking⟩
      | frame frame =>
          cases heard : Filter.standard.hear (Pitch.ofAmount logarithm) memory frame with
          | mk after counted =>
          have delivers := taking.deliver (asides (depth + 1)) heard
          cases outcome : (stage (asides (depth + 1)) number).deliver place frame session with
          | mk delivered fault =>
          rw [outcome] at delivers
          cases counted with
          | error counting =>
              obtain ⟨rfl, same, taken⟩ := delivers
              rw [taking.await_frame_of_fault _ outcome]
              refine ⟨[], after, ?_, (List.append_nil committed).symm ▸ taken⟩
              show Dictates logarithm place memory session.document _ [] _ delivered.document
              rw [same]
              exact .unheard heard
          | ok counted =>
              cases counted with
              | none =>
                  obtain ⟨rfl, same, taken⟩ := delivers
                  obtain ⟨tokens, last, dictates, takenLast⟩ := ih restEdits taken
                  rw [same] at dictates
                  rw [taking.await_frame _ outcome taken]
                  exact ⟨tokens, last, .silent heard dictates, takenLast⟩
              | some pitch =>
                  obtain ⟨rfl, ⟨chromatic, same, taken⟩ | ⟨diatonic, token, added, taken⟩⟩ :=
                    delivers
                  · obtain ⟨tokens, last, dictates, takenLast⟩ := ih restEdits taken
                    rw [same] at dictates
                    rw [taking.await_frame _ outcome taken]
                    exact ⟨tokens, last, .chromatic heard chromatic dictates, takenLast⟩
                  · obtain ⟨tokens, last, dictates, takenLast⟩ := ih restEdits taken
                    rw [taking.await_frame _ outcome taken]
                    refine ⟨token :: tokens, last, .written heard diatonic added dictates, ?_⟩
                    rw [List.append_cons]
                    exact takenLast

theorem consume_dictates {number place : Nat} {source : Source (List Operation)} (depth : Nat)
    (areEdits : ∀ edits, .aside edits ∈ source.signals → ∀ operation ∈ edits, operation.IsEdit)
    {session : Session} {memory : Filter.State Amount} {committed : List String}
    (taking : IsTaking session number place (taker logarithm memory committed)) :
    let consumed := (stage (asides (depth + 1)) number).consume source session
    ∃ tokens after, Dictates logarithm place memory session.document source.script tokens consumed.2
        consumed.1.document ∧
      IsTaking consumed.1 number place (taker logarithm after (committed ++ tokens)) := by
  have target : (stage (asides (depth + 1)) number).target? session = some place :=
    taking.target? _
  have same := (List.append_nil committed).symm ▸ taking
  unfold Capture.Stage.consume Source.script
  cases source.refusal with
  | some fault => exact ⟨[], memory, .failed, same⟩
  | none =>
      rw [target]
      cases source.unreadable with
      | some fault => exact ⟨[], memory, .failed, same⟩
      | none => exact await_dictates depth areEdits taking

/-- What a run gives back that has written tokens and may have ended on a fault: a
failed device leaves what it has written. -/
def replied (tokens : List String) : Option CaptureFault → SessionReply
  | none | some (.device _) => .ok (.tokens tokens)
  | some fault => .error (.capture fault)

theorem IsTaking.conclude {session : Session} {number place : Nat}
    {memory : Filter.State Amount} {tokens : List String}
    (taking : IsTaking session number place (taker logarithm memory tokens))
    (aside : List Operation → Session → Session) (fault : Option CaptureFault) :
    (session.conclude aside number fault).1.document = session.document ∧
      (session.conclude aside number fault).1.IsCoherent ∧
      (session.conclude aside number fault).1.recordingBlock = none ∧
      (session.conclude aside number fault).2 = replied tokens fault := by
  have same := sameText_conclude session aside number fault
  refine ⟨same.document, same.coherent taking.coherent, ?_⟩
  have stopped : IsTaking ((stage aside number).stop session) number place
      (session.recorderOf number).stop := taking.withRecorder _
  have committed : (((stage aside number).stop session).recorderOf number).committed = tokens := by
    rw [stopped.recorder, taking.recorder]
    rfl
  unfold Session.conclude
  dsimp only
  generalize (stage aside number).stop session = ended at stopped committed
  cases fault with
  | none =>
      have outcome : (stage aside number).outcome ended none = .ok tokens :=
        congrArg Except.ok committed
      rw [outcome, report, if_pos stopped.held]
      exact ⟨rfl, rfl⟩
  | some fault =>
      have outcome : (stage aside number).outcome ended (some fault) = .error fault := rfl
      rw [outcome]
      cases fault with
      | device text =>
          rw [report, if_pos stopped.held, committed]
          exact ⟨rfl, rfl⟩
      | _ =>
          rw [report, if_pos stopped.held]
          · exact ⟨rfl, rfl⟩
          · nofun

/-- A recording that has begun is taken, and has heard nothing yet. -/
theorem isTaking_of_capturing {session : Session} (coherent : IsCoherent session) {place : Nat}
    {source : Source (List Operation)} {playReference : Bool}
    (begins : (session.startCapture place source playReference).2 = .ok .capturing) :
    ∃ number, (session.startCapture place source playReference).1.recordings[number]? =
        some (.ofSource session.logarithm source) ∧
      IsTaking (session.startCapture place source playReference).1 number place
        { logarithm := session.logarithm } := by
  have same := sameText_startCapture session place source playReference
  rcases startCapture_cases session place source playReference with
    ⟨refused, -⟩ | ⟨-, recording, ⟨number, held, fresh⟩, block, found, melody⟩
  · exact absurd begins refused
  · refine ⟨number, fresh, held, ?_, ?_, recording, ?_, same.coherent coherent⟩
    · exact (List.getElem?_eq_some_iff.mp fresh).1
    · rw [recorderOf, fresh]
      rfl
    · rw [same.document]
      exact Document.kinds_of_block? found melody

theorem IsTaking.edits {number place : Nat} {recorder : Recorder} (depth : Nat)
    {edits : List Operation} (areEdits : ∀ operation ∈ edits, operation.IsEdit) {session : Session}
    (taking : IsTaking session number place recorder) :
    let edited := edits.foldl (fun session edit => (perform depth edit session).1) session
    IsTaking edited number place recorder ∧ edited.recordings = session.recordings ∧
      edited.document = edits.foldl (fun document edit => edit.edit document) session.document := by
  induction edits generalizing session with
  | nil => exact ⟨taking, rfl, rfl⟩
  | cons edit edits ih =>
      have performed := perform_edit taking.coherent (areEdits edit List.mem_cons_self) depth
      have taken : IsTaking (perform depth edit session).1 number place recorder := by
        rw [performed]
        exact taking.adopt (edit.kinds_edit session.document)
      obtain ⟨takenLast, recordings, last⟩ :=
        ih (fun other member => areEdits other (List.mem_cons_of_mem edit member)) taken
      refine ⟨takenLast, recordings.trans ?_, last.trans ?_⟩
      · rw [performed]
        rfl
      · rw [performed]
        rfl

theorem perform_runCapture_dictates {ready : Session} {number place : Nat}
    {source : Source (List Operation)} (taking : IsTaking ready number place { logarithm })
    (found : ready.recordings[number]? = some (.ofSource logarithm source)) (depth : Nat)
    (asideEdits : ∀ edits, .aside edits ∈ source.signals →
      ∀ operation ∈ edits, operation.IsEdit) :
    ∃ tokens fault,
      Dictates logarithm place {} ready.document source.script tokens fault
        (perform (depth + 1) .runCapture ready).1.document ∧
      (perform (depth + 1) .runCapture ready).1.IsCoherent ∧
      (perform (depth + 1) .runCapture ready).1.recordingBlock = none ∧
      (perform (depth + 1) .runCapture ready).2 = replied tokens fault := by
  have started : IsTaking (ready.started number) number place (taker logarithm {} []) := by
    have begun := taking.withRecorder (ready.recorderOf number).start
    rw [taking.recorder] at begun
    rw [started, taking.recorder]
    exact begun
  have consumes := consume_dictates depth asideEdits started
  have runs : perform (depth + 1) .runCapture ready =
      let consumed :=
        (stage (asides (depth + 1)) number).consume source (ready.started number)
      consumed.1.conclude (asides (depth + 1)) number consumed.2 := by
    simp only [perform_eq, performWith, runCapture_of_held taking.held found, Recording.ofSource]
  rw [runs]
  dsimp only at consumes ⊢
  generalize (stage (asides (depth + 1)) number).consume source (ready.started number) =
    consumed at consumes ⊢
  obtain ⟨tokens, after, dictates, taken⟩ := consumes
  obtain ⟨same, coherent, released, replies⟩ :=
    taken.conclude (asides (depth + 1)) consumed.2
  rw [← same] at dictates
  exact ⟨tokens, consumed.2, dictates, coherent, released, replies⟩

/-- A capture into a block of melody writes each pitch that counts and belongs to
the scale as one more note of that block. It gives back the tokens that it has
written, and lets go of the block. -/
theorem runCapture_dictates {session : Session} (occurs : Occurs session) (depth place : Nat)
    (source : Source (List Operation)) (playReference : Bool)
    (begins : (session.startCapture place source playReference).2 = .ok .capturing)
    (before : List Operation) (areEdits : ∀ operation ∈ before, operation.IsEdit)
    (asideEdits : ∀ edits, .aside edits ∈ source.signals →
      ∀ operation ∈ edits, operation.IsEdit) :
    let begun := (perform depth (.startCapture place source playReference) session).1
    let ready := before.foldl (fun session edit => (perform depth edit session).1) begun
    let finished := perform (depth + 1) .runCapture ready
    ∃ tokens fault,
      Dictates session.logarithm place {}
        (before.foldl (fun document edit => edit.edit document) session.document)
        source.script tokens fault finished.1.document ∧
      finished.1.sections = finished.1.document.sections ∧
      finished.1.recordingBlock = none ∧ finished.2 = replied tokens fault := by
  obtain ⟨number, fresh, taking⟩ :=
    isTaking_of_capturing (isInvariant_isCoherent.occurs occurs) begins
  have same := (sameText_startCapture session place source playReference).document
  have starts : (perform depth (.startCapture place source playReference) session).1 =
      (session.startCapture place source playReference).1 := by
    rw [perform_eq, performWith]
  dsimp only
  rw [starts, ← same]
  obtain ⟨takingReady, recordings, document⟩ := taking.edits depth areEdits
  obtain ⟨tokens, fault, dictates, coherent, released, replies⟩ :=
    perform_runCapture_dictates takingReady (recordings ▸ fresh) depth asideEdits
  rw [document] at dictates
  exact ⟨tokens, fault, dictates, coherent.sections, released, replies⟩

/-- The tokens of a reply. -/
def tokensOf : SessionReply → List String
  | .ok (.tokens tokens) => tokens
  | _ => []

/-- A tone at the pitch that a concert is tuned to goes on while the key is changed, and the device
is unplugged after it. It is written as a degree of the new key. -/
theorem runCapture_dictates_unplugged :
    let tone (time : Float) : Capture.Frame Amount := ⟨.real time, .real 440, .real 0.95⟩
    let source : Source (List Operation) :=
      { signals := [.frame (tone 0), .aside [.setKey 1], .frame (tone 0.4),
          .failure (.device "unplugged")] }
    ∃ finished : Session × SessionReply,
      perform 1 .runCapture (perform 0 (.startCapture 0 source false)
        (ofDocument {} true .ofOne)).1 = finished ∧
      finished.1.recordingBlock = none ∧ finished.2 = .ok (.tokens ["2"]) ∧
      NoteAdded 0 69 "2" { keyIndex := 1 } finished.1.document := by
  intro tone source
  have hears : ∀ time ∈ [(0 : Float), 0.4],
      (Filter.standard : Capture.Filter Amount).Hears (Pitch.ofAmount .ofOne) 69 (tone time) := by
    have facts : ∀ time ∈ [(0 : Float), 0.4], Filter.standard.credible (tone time) = true ∧
        Pitch.ofAmount .ofOne (tone time).frequency = .ok 69 := by
      decide +kernel
    exact facts
  let waiting : Filter.State Amount := { candidate := some ⟨69, .real 0⟩ }
  have begins : Filter.standard.hear (Pitch.ofAmount .ofOne) {} (tone 0) = (waiting, .ok none) :=
    Filter.hear_of_fresh (hears 0 (by simp)) nofun rfl nofun
  have counts : ∃ after, Filter.standard.hear (Pitch.ofAmount .ofOne) waiting (tone 0.4) =
      (after, .ok (some 69)) :=
    ⟨_, Filter.hear_of_long (hears 0.4 (by simp)) nofun rfl rfl
      ⟨_, rfl, by decide +kernel⟩ rfl⟩
  have diatonic : Pitch.IsDiatonic ((Operation.setKey 1).edit {}).key 69 :=
    ⟨2, 0, by decide, by decide, by decide⟩
  -- The tone has waited long enough when it is heard again, in the new key.
  have ends : ∀ {tokens : List String} {fault : Option CaptureFault} {last : Document},
      Dictates .ofOne 0 {} {} source.script tokens fault last →
        ∃ token, tokens = [token] ∧ fault = some (.device "unplugged") ∧
          NoteAdded 0 69 token { keyIndex := 1 } last := by
    intro tokens fault last dictates
    obtain ⟨after, counts⟩ := counts
    cases dictates.of_silent begins with
    | edited dictates =>
        obtain ⟨token, others, added, same, noteAdded, rest⟩ :=
          dictates.of_diatonic counts diatonic
        cases rest with
        | failed => exact ⟨token, same, rfl, noteAdded⟩
  have asideEdits : ∀ edits, .aside edits ∈ source.signals →
      ∀ operation ∈ edits, operation.IsEdit := by
    intro edits member operation among
    simp [source] at member
    subst member
    obtain rfl := List.mem_singleton.mp among
    exact trivial
  have said : tokensOf (perform 1 .runCapture (perform 0 (.startCapture 0 source false)
      (ofDocument {} true .ofOne)).1).2 = ["2"] := by
    decide +kernel
  have runs := runCapture_dictates (.opened {} true .ofOne) 0 0 source false rfl [] (by simp)
    asideEdits
  dsimp only [List.foldl_nil] at runs
  generalize perform 1 .runCapture (perform 0 (.startCapture 0 source false)
    (ofDocument {} true .ofOne)).1 = finished at said runs ⊢
  obtain ⟨tokens, fault, dictates, -, released, replies⟩ := runs
  obtain ⟨token, rfl, rfl, added⟩ := ends dictates
  rw [replies] at said
  obtain rfl := List.singleton_inj.mp said
  exact ⟨finished, rfl, released, replies, added⟩

end Session

end Jianpu
