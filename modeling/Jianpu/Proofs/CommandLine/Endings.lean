import Jianpu.CommandLine.Shelf
import Jianpu.Proofs.CommandLine.Sheets
import Jianpu.Proofs.Library.Keeping

/-! How the commands end that read a document. Each of them does its work, or reports an error, or
meets one of the faults that it has no words for. -/

set_option autoImplicit false

namespace Jianpu.CommandLine

variable {machine : Machine} {arguments : Arguments} {library : Library} {document : Document}

/-! Saving -/

def saveOverrides (arguments : Arguments) : Document.Overrides :=
  { title := arguments.text? "--title", album := arguments.text? "--album"
    keyIndex := arguments.whole? "--key", tempo := arguments.whole? "--tempo" }

/-- The question whether a document of the title may be overwritten, as it is asked of the input. -/
def asked (machine : Machine) (document : Document) : String × Option Bool :=
  Prompt.ask ("'" ++ document.title ++ "' already exists. Overwrite?") (Prompt.linesOf machine.input)

/-- What a save is answered if it asks. -/
def answerTo (machine : Machine) (arguments : Arguments) (document : Document) : Except Unit Bool :=
  if arguments.has "--yes" then .ok true else (asked machine document).2.elim (.error ()) .ok

/-- What has been shown when a save is over: the question, if it was asked. -/
def conversation (machine : Machine) (arguments : Arguments) (library : Library)
    (document : Document) : String :=
  if arguments.has "--yes" then ""
  else
    match library.save machine.now (fun _ asked => (.error (), asked)) document with
    | (.error (.unanswered ()), _) => (asked machine document).1
    | _ => ""

def saveOf (machine : Machine) (arguments : Arguments) (library : Library) (document : Document) :
    Except (SaveError Unit) (Option Int) × Library :=
  library.save machine.now (fun _ asked => (answerTo machine arguments document, asked)) document

def savedLine (document : Document) (id : Int) : String :=
  "Saved '" ++ document.title ++ "' as #" ++ toString id

theorem saveAsking_eq (unforced : arguments.has "--yes" = false) :
    saveAsking machine library document =
      (savedReply { machine.silence with output := conversation machine arguments library document }
        document (saveOf machine arguments library document).1,
        (saveOf machine arguments library document).2) := by
  have answered : answerTo machine arguments document =
      (asked machine document).2.elim (.error ()) .ok := by
    rw [answerTo, unforced]
    rfl
  unfold saveAsking conversation
  rw [unforced]
  rcases first : library.save machine.now (fun _ asked => (Except.error (), asked)) document with
    ⟨result, after⟩
  by_cases asks : result = .error (.unanswered ())
  · subst asks
    rw [saveOf, answered]
    rfl
  · have same : library.save machine.now (fun _ asked => (.error (), asked)) document =
        saveOf machine arguments library document :=
      Library.save_of_unasked fun other unanswered =>
        asks (congrArg Prod.fst (first.symm.trans unanswered))
    rw [← same, first]
    cases result with
    | ok id => rfl
    | error error =>
        cases error with
        | missingTitle => rfl
        | store error => rfl
        | unanswered reason => exact absurd rfl asks

def saveReply (machine : Machine) (library : Library) (arguments : Arguments) :
    Except Document.ReadError Document → Reply × Library
  | .error .tooDeep => (machine.silence.escaping .tooDeep, library)
  | .error (.file error) => (machine.silence.failOn "" error, library)
  | .ok document =>
    (savedReply { machine.silence with output := conversation machine arguments library document }
      document (saveOf machine arguments library document).1,
      (saveOf machine arguments library document).2)

theorem runSave_eq (machine : Machine) (library : Library) (arguments : Arguments) :
    runSave machine library arguments = saveReply machine library arguments
      (Document.readFile machine.reach machine.tree (inputPath arguments)
        (saveOverrides arguments)) := by
  unfold runSave inputPath saveOverrides
  dsimp only
  split
  · rename_i deep
    rw [deep]
    rfl
  · rename_i error fails
    rw [fails]
    rfl
  · rename_i document reads
    rw [reads]
    cases yes : arguments.has "--yes" with
    | true =>
        simp only [saveReply, conversation, saveOf, answerTo, yes, ↓reduceIte]
        rfl
    | false => exact saveAsking_eq yes

theorem runSave_of_reads
    (reads : Reads machine arguments (saveOverrides arguments) document) :
    ∃ start : Reply, start.IsQuiet (conversation machine arguments library document) ∧
      runSave machine library arguments =
        (savedReply start document (saveOf machine arguments library document).1,
          (saveOf machine arguments library document).2) := by
  refine ⟨{ machine.silence with output := conversation machine arguments library document },
    ⟨rfl, rfl, rfl, rfl⟩, ?_⟩
  rw [runSave_eq, reads, saveReply]

/-- The faults on which saving a document ends without words. -/
inductive SaveBreaks (machine : Machine) (library : Library) (arguments : Arguments) :
    Escape → Prop where
  | unreadable {error : FileError} :
      machine.tree.readText (inputPath arguments) = .error error → error.fault.isSystem = false →
      SaveBreaks machine library arguments (.file error)
  | tooDeep :
      Document.IsTooDeep machine.reach machine.tree (inputPath arguments) →
      SaveBreaks machine library arguments .tooDeep
  | closed {document : Document} :
      Reads machine arguments (saveOverrides arguments) document →
      (saveOf machine arguments library document).1 = .error (.store .closed) →
      library.store.isOpen = false → SaveBreaks machine library arguments (.store .closed)
  | refused {document : Document} {error : StoreError} {value : Datum} :
      Reads machine arguments (saveOverrides arguments) document →
      (saveOf machine arguments library document).1 = .error (.store error) →
      library.IsPassed machine.now document value → Store.refusal? value = some error →
      SaveBreaks machine library arguments (.store error)
  | unshowable {document : Document} {id : Int} :
      Reads machine arguments (saveOverrides arguments) document →
      (saveOf machine arguments library document).1 = .ok (some id) →
      ¬ IsShowable (savedLine document id) → SaveBreaks machine library arguments .unshowable

/-- How saving a document ends otherwise, and with which library. -/
inductive SaveEnds (machine : Machine) (library : Library) (arguments : Arguments) (reply : Reply)
    (after : Library) : Prop where
  | unreadable {error : FileError} :
      machine.tree.readText (inputPath arguments) = .error error → error.fault.isSystem = true →
      reply.Reports "" error.message → after = library →
      SaveEnds machine library arguments reply after
  | untitled {document : Document} :
      Reads machine arguments (saveOverrides arguments) document →
      (Text.trim document.title).isEmpty = true →
      reply.Reports (conversation machine arguments library document) missingTitleMessage →
      SaveEnds machine library arguments reply after
  | refused {document : Document} {error : StoreError} {message : String} :
      Reads machine arguments (saveOverrides arguments) document →
      (saveOf machine arguments library document).1 = .error (.store error) →
      error.message? = some message →
      reply.Reports (conversation machine arguments library document) message →
      SaveEnds machine library arguments reply after
  | unanswered {document : Document} :
      Reads machine arguments (saveOverrides arguments) document →
      answerTo machine arguments document = .error () →
      reply.IsAborted (conversation machine arguments library document) →
      SaveEnds machine library arguments reply after
  | declined {document : Document} :
      Reads machine arguments (saveOverrides arguments) document →
      library.isSaving = true ∨ answerTo machine arguments document = .ok false →
      reply.Tells (conversation machine arguments library document) ["Not saved."] →
      after.store.database = library.store.database →
      SaveEnds machine library arguments reply after
  | saved {document : Document} {id : Int} :
      Reads machine arguments (saveOverrides arguments) document →
      reply.Tells (conversation machine arguments library document) [savedLine document id] →
      after.store.HasDocument library.owner document id →
      SaveEnds machine library arguments reply after

theorem runSave_of_error {error : FileError}
    (fails : machine.tree.readText (inputPath arguments) = .error error) :
    runSave machine library arguments = (machine.silence.failOn "" error, library) := by
  rw [runSave_eq, Document.readFile_of_readText_error fails]
  rfl

theorem runSave_of_isTooDeep
    (deep : Document.IsTooDeep machine.reach machine.tree (inputPath arguments)) :
    runSave machine library arguments = (machine.silence.escaping .tooDeep, library) := by
  rw [runSave_eq, Document.readFile_of_isTooDeep deep]
  rfl

theorem savedReply_saved (reply : Reply) (document : Document) (id : Int) :
    savedReply reply document (.ok (some id)) = reply.line (savedLine document id) := rfl

theorem savedReply_of_wordless (reply : Reply) (document : Document) {error : StoreError}
    (wordless : error.message? = none) :
    savedReply reply document (.error (.store error)) = reply.escaping (.store error) := by
  simp only [savedReply, Reply.ofStoreError, wordless]

theorem savedReply_of_message (reply : Reply) (document : Document) {error : StoreError}
    {message : String} (worded : error.message? = some message) :
    savedReply reply document (.error (.store error)) = reply.fail message := by
  simp only [savedReply, Reply.ofStoreError, worded]

theorem escape_of_saveBreaks {escape : Escape} (breaks : SaveBreaks machine library arguments escape) :
    (runSave machine library arguments).1.escape = some escape := by
  cases breaks with
  | unreadable fails unworded =>
      rw [runSave_of_error fails, Reply.failOn, if_neg (by simp [unworded])]
      rfl
  | tooDeep deep =>
      rw [runSave_of_isTooDeep deep]
      rfl
  | closed reads fails closed =>
      obtain ⟨start, -, runs⟩ := @runSave_of_reads _ _ library _ reads
      rw [runs, fails, savedReply_of_wordless _ _ rfl]
      rfl
  | refused reads fails passed refused =>
      obtain ⟨start, -, runs⟩ := @runSave_of_reads _ _ library _ reads
      rw [runs, fails, savedReply_of_wordless _ _ (Store.message?_of_refusal? refused)]
      rfl
  | unshowable reads saved hidden =>
      obtain ⟨start, quiet, runs⟩ := @runSave_of_reads _ _ library _ reads
      rw [runs, saved, savedReply_saved]
      exact quiet.escape_line hidden

theorem save_cases (machine : Machine) (library : Library) (arguments : Arguments) :
    (∃ escape, SaveBreaks machine library arguments escape) ∨
      SaveEnds machine library arguments (runSave machine library arguments).1
        (runSave machine library arguments).2 := by
  rcases Document.readFile_cases machine.reach machine.tree (inputPath arguments)
      (saveOverrides arguments) with
    ⟨error, fails⟩ | deep | ⟨document, reads⟩
  · cases system : error.fault.isSystem with
    | false => exact .inl ⟨_, .unreadable fails system⟩
    | true =>
        refine .inr (.unreadable fails system ?_ ?_)
        · rw [runSave_of_error fails]
          have reports := (Reply.isQuiet_of_tree machine.tree).failOn system ""
          rwa [String.empty_append] at reports
        · rw [runSave_of_error fails]
  · exact .inl ⟨_, .tooDeep deep⟩
  · obtain ⟨start, quiet, runs⟩ := @runSave_of_reads _ _ library _ reads
    rcases saves : saveOf machine arguments library document with ⟨result, after⟩
    rw [saves] at runs
    rw [runs]
    have outcome : (saveOf machine arguments library document).1 = result := congrArg Prod.fst saves
    cases result with
    | ok number =>
        cases number with
        | none =>
            obtain ⟨reason, same⟩ := Library.declined_of_save saves
            exact .inr (.declined reads reason (quiet.tells_line (by decide +kernel)) same)
        | some id =>
            by_cases showable : IsShowable (savedLine document id)
            · exact .inr (.saved reads (quiet.tells_line showable)
                (Library.hasDocument_of_save saves))
            · exact .inl ⟨_, .unshowable reads outcome showable⟩
    | error error =>
        cases error with
        | missingTitle =>
            exact .inr (.untitled reads (Library.untitled_of_save saves) (quiet.reports _))
        | unanswered reason =>
            exact .inr (.unanswered reads (Library.unanswered_of_save saves) quiet.isAborted)
        | store error =>
            cases worded : error.message? with
            | some message =>
                refine .inr (.refused reads outcome worded ?_)
                rw [savedReply_of_message _ _ worded]
                exact quiet.reports _
            | none =>
                rcases Library.refusal_of_save saves worded with
                  ⟨rfl, closed⟩ | ⟨value, passed, refused⟩
                · exact .inl ⟨_, .closed reads outcome closed⟩
                · exact .inl ⟨_, .refused reads outcome passed refused⟩

/-! All commands that read a document -/

theorem RenderEnds.escape_eq_none {reply : Reply} (ends : RenderEnds machine arguments reply) :
    reply.escape = none := by
  cases ends with
  | unreadable _ reports => exact reports.escape
  | unmade _ _ _ reports => exact reports.escape
  | written _ _ tells => exact tells.escape

theorem MidiEnds.escape_eq_none {reply : Reply} (ends : MidiEnds machine arguments reply) :
    reply.escape = none := by
  cases ends with
  | unreadable _ _ reports => exact reports.escape
  | unusable _ _ _ reports => exact reports.escape
  | written _ _ tells => exact tells.escape

theorem SaveEnds.escape_eq_none {reply : Reply} {after : Library}
    (ends : SaveEnds machine library arguments reply after) : reply.escape = none := by
  cases ends with
  | unreadable _ _ reports => exact reports.escape
  | untitled _ _ reports => exact reports.escape
  | refused _ _ _ reports => exact reports.escape
  | unanswered _ _ aborted => exact aborted.escape
  | declined _ _ tells => exact tells.escape
  | saved _ tells => exact tells.escape

/-- Whatever stands at the path of the document and whatever is asked of them, the commands that
read a document do their work, report an error, or break on the faults that they have no words
for, which are known. -/
theorem commands_on_documents_end (machine : Machine) (library : Library) (arguments : Arguments) :
    (runRender machine arguments).EndsBy (RenderBreaks machine arguments)
        (RenderEnds machine arguments (runRender machine arguments)) ∧
      (runMidi machine arguments).EndsBy (MidiBreaks machine arguments)
        (MidiEnds machine arguments (runMidi machine arguments)) ∧
      (runSave machine library arguments).1.EndsBy (SaveBreaks machine library arguments)
        (SaveEnds machine library arguments (runSave machine library arguments).1
          (runSave machine library arguments).2) :=
  ⟨Reply.endsBy_of_cases (fun _ => escape_of_renderBreaks) RenderEnds.escape_eq_none
      (render_cases machine arguments),
    Reply.endsBy_of_cases (fun _ => escape_of_midiBreaks) MidiEnds.escape_eq_none
      (midi_cases machine arguments),
    Reply.endsBy_of_cases (fun _ => escape_of_saveBreaks) SaveEnds.escape_eq_none
      (save_cases machine library arguments)⟩

/-- A file that is there, but is no text, is reported by the command that draws sheets and breaks
the one that writes MIDI files. -/
theorem undecodable_document_breaks :
    let tree : FileTree Database := ⟨[(Path.ofText "song.txt", .file [0xFF])]⟩
    let machine : Machine :=
      { tree
        environment := fun _ => none
        input := ""
        freshOwner := ""
        now := ""
        decodeScore := fun _ => .error ""
        decodeRecording := fun _ => .error ""
        tools := .absent }
    let arguments : Arguments := [("INPUT", .text "song.txt"), ("--output", .text "song.mid")]
    tree.readOctets "song.txt" = .ok [0xFF] ∧
      (runRender machine arguments).Reports ""
        "Could not render 'song.txt' — 'utf-8' codec can't decode byte 0xff in position 0: invalid start byte" ∧
      (runMidi machine arguments).escape =
        some (.file ⟨.undecodable ⟨0xFF, 0, 1, .invalidStart⟩, "song.txt"⟩) := by
  intro tree machine arguments
  have reads : machine.tree.readText (inputPath arguments) =
      .error ⟨.undecodable ⟨0xFF, 0, 1, .invalidStart⟩, "song.txt"⟩ := by
    decide +kernel
  refine ⟨by decide +kernel, ?_, escape_of_midiBreaks (.unreadable reads rfl)⟩
  rw [runRender_of_error reads]
  exact (Reply.isQuiet_of_tree machine.tree).reports _

end Jianpu.CommandLine
