import Jianpu.Proofs.Capture.Answers
import Jianpu.Proofs.Document.Extending
import Jianpu.Proofs.Session.Dictation

/-! A capture that nothing disturbs. The tokens of the pitches that count are
written to the block one after the other, and nothing else of the document changes. -/

set_option autoImplicit false

namespace Jianpu

open Number (Amount)
open Capture (CaptureFault Filter Recorder Signal Source)

/-! Tokens -/

/-- The tokens that a capture in a key writes for detections. -/
def Capture.transcript (logarithm : Pitch.Logarithm) (key : Key)
    (frames : List (Capture.Frame Amount)) : List String :=
  (Filter.standard.commits (Pitch.ofAmount logarithm) frames).filterMap fun entry =>
    Pitch.captureToken? key entry.1

theorem Capture.transcript_eq (logarithm : Pitch.Logarithm) (key : Key)
    (frames : List (Capture.Frame Amount)) :
    transcript logarithm key frames =
      ((Filter.standard.commits (Pitch.ofAmount logarithm) frames).map Prod.fst).filterMap
        (Pitch.captureToken? key) := by
  rw [List.filterMap_map]
  rfl

theorem Capture.transcript_snoc {logarithm : Pitch.Logarithm}
    {before : List (Capture.Frame Amount)} {frame : Capture.Frame Amount} {counted : Option Int}
    (answer : Filter.standard.answer (Pitch.ofAmount logarithm) before frame = .ok counted)
    (key : Key) :
    transcript logarithm key (before ++ [frame]) =
      transcript logarithm key before ++ (counted.bind (Pitch.captureToken? key)).toList := by
  rw [transcript, Filter.commits_snoc, List.filterMap_append, answer, transcript]
  congr 1
  cases counted with
  | none => rfl
  | some pitch => cases written : Pitch.captureToken? key pitch <;> simp [Filter.logged, written]

theorem Document.isWord_of_captureToken? {key : Key} {pitch : Int} {token : String}
    (written : Pitch.captureToken? key pitch = some token) : Document.IsWord token := by
  obtain ⟨digit, spelled, degree, -⟩ := Notation.captureToken?_spelled written
  have glyph : ∀ c ∈ token.toList, c ∈ Notation.degreeDigits ++ ['\'', ','] := by
    rw [spelled]
    intro c member
    rcases List.mem_cons.mp member with rfl | mark
    · exact List.mem_append_left _ degree
    · refine List.mem_append_right _ ?_
      unfold Pitch.octaveMarks at mark
      split at mark
      all_goals simp [(List.mem_replicate.mp mark).2]
  have solid : (Notation.degreeDigits ++ ['\'', ',']).all (fun c => !Text.isBlank c) = true := by
    decide
  have plain : (Notation.degreeDigits ++ ['\'', ',']).all Text.isPlain = true := by
    decide
  refine ⟨by simp [spelled], ?_, Text.isFileText_of_plain (List.all_eq_true.mpr ?_)⟩
  · intro c member
    simpa using List.all_eq_true.mp solid c (glyph c member)
  · intro c member
    exact List.all_eq_true.mp plain c (glyph c member)

theorem Capture.isWord_of_transcript {logarithm : Pitch.Logarithm} {key : Key}
    {frames : List (Capture.Frame Amount)} :
    ∀ token ∈ transcript logarithm key frames, Document.IsWord token := by
  intro token member
  obtain ⟨entry, -, written⟩ := List.mem_filterMap.mp member
  exact Document.isWord_of_captureToken? written

/-! Appending to one block -/

/-- A document with tokens appended to the block at a place, one after the other. -/
def Document.continued (document : Document) (place : Nat) (tokens : List String) : Document :=
  { document with
    blocks := document.blocks.modify place fun block =>
      { block with content := tokens.foldl Document.appended block.content } }

theorem Document.continued_nil (document : Document) (place : Nat) :
    document.continued place [] = document := by
  have same : document.blocks.modify place id = document.blocks := List.modify_id place _
  exact congrArg (fun blocks => { document with blocks }) same

theorem Document.continued_between {document : Document} {before after : List Block} {block : Block}
    (split : document.blocks = before ++ block :: after) (tokens : List String) :
    document.continued before.length tokens =
      { document with
        blocks := before ++
          { block with content := tokens.foldl Document.appended block.content } :: after } := by
  rw [continued, split, List.modify_eq_take_cons_drop (by simp)]
  simp

theorem Document.appendToBlock_continued {document : Document} {place : Nat}
    (inside : place < document.blocks.length) (tokens : List String) (token : String) :
    (document.continued place tokens).appendToBlock place token =
      .ok (document.continued place (tokens ++ [token])) := by
  have standing : place < (document.continued place tokens).blocks.length := by
    simpa [continued] using inside
  have found := position?_natCast standing
  let block := (document.continued place tokens).blocks[place]
  have blocks : ∀ other : Nat,
      ((document.continued place tokens).blocks.set place
        { block with content := appended block.content token })[other]? =
      (document.continued place (tokens ++ [token])).blocks[other]? := by
    intro other
    by_cases same : place = other
    · subst same
      simp [block, continued, inside, List.foldl_append]
    · simp [continued, same]
  simp only [appendToBlock, block?, found, Option.map_some, updateBlock]
  exact congrArg (fun blocks : List Block =>
    (Except.ok { document with blocks } : Except EditError Document)) (List.ext_getElem? blocks)

theorem Document.kinds_continued (document : Document) (place : Nat) (tokens : List String) :
    (document.continued place tokens).kinds = document.kinds := by
  refine List.ext_getElem? fun other => ?_
  by_cases same : place = other
  · subst same
    simp [kinds, continued, Function.comp_def]
  · simp [kinds, continued, same]

namespace Session

/-- A session that has heard detections and written what came of them to the block
at a place. -/
structure HasHeard (logarithm : Pitch.Logarithm) (document : Document) (number place : Nat)
    (frames : List (Capture.Frame Amount)) (session : Session) : Prop where
  taking : IsTaking session number place
    (taker logarithm (Filter.standard.stateAfter (Pitch.ofAmount logarithm) frames)
      (Capture.transcript logarithm document.key frames))
  document : session.document =
    document.continued place (Capture.transcript logarithm document.key frames)
  noError : session.captureError = none

theorem IsTaking.appendCaptured {session : Session} {number place : Nat} {recorder : Recorder}
    (taking : IsTaking session number place recorder) {document : Document} {tokens : List String}
    (same : session.document = document.continued place tokens)
    (noError : session.captureError = none) {token : String} :
    (session.appendCaptured place token).2 = none ∧
      IsTaking (session.appendCaptured place token).1 number place recorder ∧
      (session.appendCaptured place token).1.document =
        document.continued place (tokens ++ [token]) ∧
      (session.appendCaptured place token).1.captureError = none := by
  have inside : place < document.blocks.length := by
    have standing := (List.getElem?_eq_some_iff.mp taking.melody).1
    simpa [Document.kinds, same, Document.continued] using standing
  have within : ¬(session.document.blocks.length : Int) ≤ place := by
    simpa [same, Document.continued] using inside
  have kinds : session.document.kinds = (document.continued place (tokens ++ [token])).kinds := by
    rw [same, Document.kinds_continued, Document.kinds_continued]
  rw [Session.appendCaptured, if_neg within, same, Document.appendToBlock_continued inside]
  exact ⟨rfl, taking.adopt (kinds ▸ List.prefix_rfl), rfl, noError⟩

namespace HasHeard

variable {logarithm : Pitch.Logarithm} {document : Document} {number place : Nat}
  {before : List (Capture.Frame Amount)} {session : Session} {frame : Capture.Frame Amount}
  (aside : List Operation → Session → Session)

/-- A detection that is answered is heard, and its token written. -/
theorem deliver (heard : HasHeard logarithm document number place before session)
    {counted : Option Int}
    (answer : Filter.standard.answer (Pitch.ofAmount logarithm) before frame = .ok counted) :
    ((stage aside number).deliver place frame session).2 = none ∧
      HasHeard logarithm document number place (before ++ [frame])
        ((stage aside number).deliver place frame session).1 := by
  obtain ⟨taking, same, noError⟩ := heard
  have key : session.document.key = document.key := by
    rw [same]
    rfl
  have hears := Filter.hear_stateAfter .standard (Pitch.ofAmount logarithm) before frame
  rw [answer] at hears
  have longer := Capture.transcript_snoc answer document.key
  generalize tokensBefore : Capture.transcript logarithm document.key before = tokens at *
  obtain ⟨recorder, token⟩ := hear_taker hears tokens document.key
  generalize Filter.standard.stateAfter (Pitch.ofAmount logarithm) before = memory at *
  have shown := taking.shown ((taker logarithm memory tokens).hear document.key frame)
  have counts : ((taker logarithm memory tokens).hear document.key frame).token =
      .ok (counted.bind (Pitch.captureToken? document.key)) := token
  rw [recorder] at shown
  rw [deliver_eq, taking.recorder, taking.coherent.key, key]
  dsimp only
  rw [counts]
  cases written : counted.bind (Pitch.captureToken? document.key) with
  | none =>
      rw [written, Option.toList_none, List.append_nil] at longer
      refine ⟨rfl, ?_, ?_, noError⟩
      · rw [longer]
        exact shown
      · rw [longer]
        exact same
  | some token =>
      rw [written, Option.toList_some] at longer
      have noted := shown.withRecorder (taker logarithm
        (Filter.standard.stateAfter (Pitch.ofAmount logarithm) (before ++ [frame]))
        (tokens ++ [token]))
      rw [recorder]
      obtain ⟨noFault, taken, sameAfter, noErrorAfter⟩ := noted.appendCaptured same noError
      refine ⟨noFault, ?_, ?_, noErrorAfter⟩
      · rw [longer]
        exact taken
      · rw [longer]
        exact sameAfter

/-- What a detector gives is heard to the end. -/
theorem await (heard : HasHeard logarithm document number place before session)
    (tells : logarithm.TellsNotes) (source : Source (List Operation))
    (frames : List (Capture.Frame Amount))
    (areReal : ∀ frame ∈ before ++ frames, frame.IsReal) :
    let consumed := (stage aside number).await source place (frames.map .frame) session
    consumed.2 = none ∧
      HasHeard logarithm document number place (before ++ frames) consumed.1 := by
  induction frames generalizing before session with
  | nil => exact ⟨rfl, by rwa [List.append_nil]⟩
  | cons frame frames ih =>
      rw [List.append_cons] at areReal
      obtain ⟨counted, answer⟩ := Filter.exists_answer_of_real tells
        fun other member => areReal other (List.mem_append_left frames member)
      have delivers := heard.deliver aside answer
      cases outcome : (stage aside number).deliver place frame session with
      | mk delivered reported =>
      rw [outcome] at delivers
      obtain ⟨rfl, hasHeard⟩ := delivers
      rw [List.map_cons, heard.taking.await_frame aside outcome hasHeard.taking, List.append_cons]
      exact ih hasHeard areReal

end HasHeard

/-! Whole captures -/

theorem captureError_conclude (session : Session) (aside : List Operation → Session → Session)
    (number : Nat) (fault : Option CaptureFault) :
    (session.conclude aside number fault).1.captureError =
      match fault with
      | some (.device text) => some text
      | _ => session.captureError := by
  have released : ∀ told : Session,
      (if told.held = some number then told.release else told).captureError =
        told.captureError := by
    intro told
    split <;> rfl
  rw [conclude]
  dsimp only
  rw [released]
  cases fault with
  | none => rfl
  | some fault => cases fault <;> rfl

theorem startCapture_of_idle {session : Session} (idle : session.recordingBlock = none)
    {place : Nat} {block : Block} (found : session.document.blocks[place]? = some block)
    (melody : block.kind = .melody) (source : Source (List Operation)) (playReference : Bool) :
    (session.startCapture place source playReference).2 = .ok .capturing ∧
      (session.startCapture place source playReference).1.captureError = none := by
  obtain ⟨inside, rfl⟩ := List.getElem?_eq_some_iff.mp found
  have stands : session.document.block? place = some session.document.blocks[place] := by
    rw [Document.block?, position?_natCast inside]
    rfl
  rw [startCapture]
  simp only [idle, Option.isSome_none, Bool.false_eq_true, ↓reduceIte, reduceCtorEq, stands, melody]
  exact ⟨trivial, rfl⟩

theorem IsTaking.started {begun : Session} {number place : Nat} {logarithm : Pitch.Logarithm}
    (taking : IsTaking begun number place { logarithm }) :
    IsTaking (begun.started number) number place (taker logarithm {} []) := by
  have started := taking.withRecorder (begun.recorderOf number).start
  rw [taking.recorder] at started
  rw [Session.started, taking.recorder]
  exact started

section Whole

variable {begun : Session} {number place : Nat} {logarithm : Pitch.Logarithm}
  (taking : IsTaking begun number place { logarithm })
  (aside : List Operation → Session → Session)

include taking

/-- A capture of what a detector gives writes the tokens of it. -/
theorem IsTaking.runCapture_frames (tells : logarithm.TellsNotes)
    {frames : List (Capture.Frame Amount)} (areReal : ∀ frame ∈ frames, frame.IsReal)
    (fresh : begun.recordings[number]? =
      some (.ofSource logarithm { signals := frames.map .frame }))
    (noError : begun.captureError = none) :
    let tokens := Capture.transcript logarithm begun.document.key frames
    (begun.runCapture aside).1.captureError = none ∧
      (begun.runCapture aside).2 = .ok (.tokens tokens) ∧
      (begun.runCapture aside).1.document = begun.document.continued place tokens := by
  have heard : HasHeard logarithm begun.document number place [] (begun.started number) :=
    ⟨taking.started, (Document.continued_nil begun.document place).symm, noError⟩
  have consumes : (stage aside number).consume { signals := frames.map .frame }
      (begun.started number) =
        (stage aside number).await { signals := frames.map .frame } place (frames.map .frame)
          (begun.started number) := by
    rw [Capture.Stage.consume, heard.taking.target? aside]
  obtain ⟨quiet, all⟩ := heard.await aside tells { signals := frames.map .frame } frames areReal
  rw [List.nil_append] at all
  obtain ⟨same, -, -, replies⟩ := all.taking.conclude aside none
  simp only [runCapture_of_held taking.held fresh, Recording.ofSource, consumes, quiet,
    captureError_conclude]
  exact ⟨all.noError, replies, same.trans all.document⟩

/-- A capture of a device that cannot be read tells its words. -/
theorem IsTaking.runCapture_unreadable {text : String}
    (fresh : begun.recordings[number]? =
      some (.ofSource logarithm { unreadable := some (.device text), signals := [] })) :
    (begun.runCapture aside).1.captureError = some text := by
  have consumes : (stage aside number).consume
      { unreadable := some (.device text), signals := [] } (begun.started number) =
        (begun.started number, some (.device text)) := by
    rw [Capture.Stage.consume, taking.started.target? aside]
  simp only [runCapture_of_held taking.held fresh, Recording.ofSource, consumes,
    captureError_conclude]

end Whole

end Session

end Jianpu
