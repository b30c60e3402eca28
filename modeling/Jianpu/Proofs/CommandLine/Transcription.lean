import Jianpu.CommandLine.Intake
import Jianpu.Proofs.CommandLine.Replies
import Jianpu.Proofs.Session.Transcript

/-! Transcripts that are appended to a file. The tokens of a recording go to the end of
the last melody block, and whatever else the file holds is read from it as before. -/

set_option autoImplicit false

namespace Jianpu

open Number (Amount)
open Capture (Detector Filter Frame transcript)
open Document (Extends IsWord)

namespace CommandLine

/-! The block that is recorded into -/

theorem lastMelody?_snoc (document : Document) (blocks : List Block) (block : Block) :
    lastMelody? { document with blocks := blocks ++ [block] } =
      if block.kind = .melody then some blocks.length
      else lastMelody? { document with blocks } := by
  simp only [lastMelody?, List.zipIdx_append, List.filter_append]
  split <;> simp_all

/-- The last melody block stands before blocks of other kinds. -/
theorem lastMelody?_spec (document : Document) :
    match lastMelody? document with
    | some place => ∃ before content after,
        document.blocks = before ++ ⟨.melody, content⟩ :: after ∧ place = before.length ∧
          ∀ block ∈ after, block.kind ≠ .melody
    | none => ∀ block ∈ document.blocks, block.kind ≠ .melody := by
  obtain ⟨title, album, keyIndex, tempo, blocks, settings⟩ := document
  induction blocks using List.reverseRecOn with
  | nil => simp [lastMelody?]
  | append_singleton blocks block ih =>
      have step := lastMelody?_snoc ⟨title, album, keyIndex, tempo, [], settings⟩ blocks block
      dsimp only at step ih ⊢
      rw [step]
      by_cases melody : block.kind = .melody
      · rw [if_pos melody]
        exact ⟨blocks, block.content, [], by rw [← melody], rfl, by simp⟩
      · rw [if_neg melody]
        split
        · rename_i place found
          rw [found] at ih
          obtain ⟨before, content, after, rfl, rfl, others⟩ := ih
          refine ⟨before, content, after ++ [block], by simp, rfl, ?_⟩
          intro other member
          rcases List.mem_append.mp member with among | last
          · exact others other among
          · exact List.mem_singleton.mp last ▸ melody
        · rename_i nothing
          rw [nothing] at ih
          intro other member
          rcases List.mem_append.mp member with among | last
          · exact ih other among
          · exact List.mem_singleton.mp last ▸ melody

section Recording

variable {logarithm : Pitch.Logarithm} {document : Document}

theorem recordingSession_of_some {place : Nat} (found : lastMelody? document = some place) :
    recordingSession logarithm document none =
      (Session.ofDocument document false logarithm, place) := by
  unfold recordingSession
  dsimp only
  split
  · rename_i index known
    obtain rfl := Option.some.inj (known.symm.trans found)
    rfl
  · rename_i nothing
    cases nothing.symm.trans found

theorem recordingSession_of_none (nothing : lastMelody? document = none) :
    recordingSession logarithm document none =
      ((Session.ofDocument document false logarithm).adopt (document.addBlock .melody ""),
        document.blocks.length) := by
  unfold recordingSession
  dsimp only
  split
  · rename_i index known
    cases known.symm.trans nothing
  · rfl

variable (logarithm document)

/-- A session that is ready to record: into the last melody block, or a new one. -/
theorem recordingSession_ready :
    ∃ session place, recordingSession logarithm document none = (session, place) ∧
      session.IsCoherent ∧ session.recordingBlock = none ∧ session.logarithm = logarithm ∧
      session.document.key = document.key ∧
      (∃ block, session.document.blocks[place]? = some block ∧ block.kind = .melody) ∧
      ∀ tokens, (∀ token ∈ tokens, IsWord token) → ∃ blocks,
        Extends tokens document.blocks blocks ∧
          session.document.continued place tokens = { document with blocks } := by
  have spec := lastMelody?_spec document
  have coherent : (Session.ofDocument document false logarithm).IsCoherent := ⟨rfl, rfl⟩
  cases found : lastMelody? document with
  | some place =>
      rw [found] at spec
      obtain ⟨before, content, after, split, rfl, others⟩ := spec
      refine ⟨_, before.length, recordingSession_of_some found, coherent, rfl, rfl, rfl,
        ⟨⟨.melody, content⟩, ?_, rfl⟩, ?_⟩
      · show document.blocks[before.length]? = _
        rw [split]
        simp
      · intro tokens areWords
        have longer : Extends tokens (before ++ ⟨.melody, content⟩ :: after) _ := .last others
        refine ⟨_, split ▸ longer, ?_⟩
        rw [← Document.foldl_appended areWords]
        exact Document.continued_between split tokens
  | none =>
      rw [found] at spec
      refine ⟨_, document.blocks.length, recordingSession_of_none found,
        Session.isCoherent_adopt _ _, rfl, rfl, rfl, ⟨⟨.melody, ""⟩, ?_, rfl⟩, ?_⟩
      · show (document.blocks ++ [⟨.melody, ""⟩])[document.blocks.length]? = _
        simp
      · intro tokens areWords
        refine ⟨_, .added spec, ?_⟩
        have split : (document.addBlock .melody "").blocks =
            document.blocks ++ ⟨.melody, ""⟩ :: [] := rfl
        rw [← Document.extended_empty, ← Document.foldl_appended areWords]
        exact Document.continued_between split tokens

/-- What comes of recording detections into a document. -/
theorem recordInto_frames (tells : logarithm.TellsNotes) {frames : List (Frame Amount)}
    (areReal : ∀ frame ∈ frames, frame.IsReal) :
    let recorded := recordInto logarithm document none { signals := frames.map .frame }
    let tokens := transcript logarithm document.key frames
    recorded.1.captureError = none ∧ recorded.2 = .ok (.tokens tokens) ∧
      ∃ blocks, Extends tokens document.blocks blocks ∧
        recorded.1.document = { document with blocks } := by
  obtain ⟨session, place, ready, coherent, idle, rfl, key, ⟨block, found, melody⟩, extends_⟩ :=
    recordingSession_ready logarithm document
  obtain ⟨begins, noError⟩ := Session.startCapture_of_idle idle found melody
    { signals := frames.map .frame } false
  obtain ⟨number, fresh, taking⟩ := Session.isTaking_of_capturing coherent begins
  have same := (Session.sameText_startCapture session place { signals := frames.map .frame }
    false).document
  obtain ⟨blocks, longer, continued⟩ :=
    extends_ (transcript session.logarithm document.key frames) Capture.isWord_of_transcript
  simp only [recordInto, ready]
  obtain ⟨quiet, replies, written⟩ := taking.runCapture_frames (fun _ session => session) tells
    areReal fresh noError
  rw [same, key] at replies written
  exact ⟨quiet, replies, blocks, longer, written.trans continued⟩

/-- What comes of recording a device that cannot be read. -/
theorem recordInto_unreadable (text : String) :
    (recordInto logarithm document none
      { unreadable := some (.device text), signals := [] }).1.captureError = some text := by
  obtain ⟨session, place, ready, coherent, idle, rfl, -, ⟨block, found, melody⟩, -⟩ :=
    recordingSession_ready logarithm document
  obtain ⟨begins, -⟩ := Session.startCapture_of_idle idle found melody
    { unreadable := some (.device text), signals := [] } false
  obtain ⟨number, fresh, taking⟩ := Session.isTaking_of_capturing coherent begins
  simp only [recordInto, ready]
  exact taking.runCapture_unreadable (fun _ session => session) fresh

end Recording

/-! The command -/

/-- The empty text names the working directory, which is no file. -/
theorem ne_empty_of_readFile {reach : Envelope.Reach} {tree : FileTree Database}
    {target : String} {document : Document}
    (readable : Document.readFile reach tree (Path.ofText target) {} = .ok document) :
    target ≠ "" := by
  rintro rfl
  obtain ⟨text, reads, -⟩ := Document.readFile_eq_ok_iff.mp readable
  obtain ⟨octets, -, status, -⟩ := FileTree.status_of_readText reads
  have dot : (Path.ofText "").text = "." := by
    decide
  have usable : FileTree.unusable? "." = none := by
    decide +kernel
  have components : Path.components "." = ["."] := by
    decide
  obtain ⟨directory, name, approached, -⟩ := FileTree.status_eq_file_iff.mp status
  rw [dot, FileTree.approach, usable, components] at approached
  cases approached

theorem transcriptTarget_of_readFile {machine : Machine} {target : String} {document : Document}
    (readable : Document.readFile machine.reach machine.tree (Path.ofText target) {} =
      .ok document) :
    transcriptTarget machine target = .ok document := by
  have some : ¬ target.isEmpty = true := by
    simpa [String.isEmpty_iff] using ne_empty_of_readFile readable
  obtain ⟨text, reads, -⟩ := Document.readFile_eq_ok_iff.mp readable
  obtain ⟨octets, -, status, -⟩ := FileTree.status_of_readText reads
  have present : machine.tree.exists? (Path.ofText target).text = .ok true := by
    rw [FileTree.exists?, status]
  rw [transcriptTarget, if_neg some, present]
  exact readable

/-- A transcript leaves the document in the file, and nothing else changed. -/
theorem tree_writeTranscript {reply : Reply} {document : Document} {tokens : List String}
    {target : String} {after : FileTree Database} (someTarget : target ≠ "")
    (writes : document.writeFile reply.tree (Path.ofText target) = (.ok (), after)) :
    (writeTranscript reply document tokens target).tree = after := by
  have some : ¬ target.isEmpty = true := by
    simpa [String.isEmpty_iff] using someTarget
  rw [writeTranscript]
  simp only [some, Bool.false_eq_true, ↓reduceIte, tree_line, writes]

section Run

variable {machine : Machine} {arguments : Arguments} {target : String} {document : Document}
variable {session : Session} {reply : SessionReply}
variable (given : arguments.text? "--append-to" = some target)
variable (opened : transcriptTarget machine target = .ok document)

/-- What is recorded into a document from the file that the command names. -/
def Records (machine : Machine) (arguments : Arguments) (document : Document) (session : Session)
    (reply : SessionReply) : Prop :=
  let audio := Path.ofText ((arguments.text? "AUDIO").getD "")
  let octets := (machine.tree.readOctets audio.text).toOption.getD []
  recordInto machine.logarithm document (arguments.whole? "--key")
    (Capture.Source.ofRecording {} audio (machine.decodeRecording octets)) = (session, reply)

include given opened

theorem runTranscribe_of_captureError (recorded : Records machine arguments document session reply)
    {reason : String} (said : session.captureError = some reason) :
    runTranscribe machine arguments = machine.silence.fail reason := by
  rw [Records] at recorded
  simp only [runTranscribe, given, Option.getD_some, opened, recorded, said]

theorem runTranscribe_of_tokens {tokens : List String}
    (recorded : Records machine arguments document session (.ok (.tokens tokens)))
    (quiet : session.captureError = none) :
    runTranscribe machine arguments =
      writeTranscript machine.silence session.document tokens target := by
  rw [Records] at recorded
  simp only [runTranscribe, given, Option.getD_some, opened, recorded, quiet]

end Run

/-- A transcript that is appended to a file which can be read, with whole settings and texts
alone, changes nothing in it but the last melody block, to which the tokens are appended; a
document without one gets one. A recording that cannot be decoded leaves every file as it is. -/
theorem transcript_is_appended (machine : Machine) (arguments : Arguments) {target : String}
    {document : Document} (tells : machine.logarithm.TellsNotes)
    (given : arguments.text? "--append-to" = some target)
    (noKey : arguments.whole? "--key" = none)
    (readable : Document.readFile machine.reach machine.tree (Path.ofText target) {} =
      .ok document)
    (spacing : document.settings.spacing.whole?.isSome)
    (scale : document.settings.scale.whole?.isSome)
    (clear : ∀ block ∈ document.blocks, Text.Utf8.encodingFault? block.content = none) :
    let audio := Path.ofText ((arguments.text? "AUDIO").getD "")
    let recording :=
      machine.decodeRecording ((machine.tree.readOctets audio.text).toOption.getD [])
    let reply := runTranscribe machine arguments
    (∀ reason, recording = .error reason → reply.status = 1 ∧ reply.tree = machine.tree) ∧
    ∀ estimate, recording = .ok estimate →
      ∃ frames blocks, ({} : Detector).track estimate = .ok frames ∧
        Extends (transcript machine.logarithm document.key frames) document.blocks blocks ∧
        ∀ later, Document.readFile later reply.tree (Path.ofText target) {} =
          .ok { document with blocks } := by
  intro audio recording reply
  have opened := transcriptTarget_of_readFile readable
  have records : ∀ source, Capture.Source.ofRecording {} audio recording = source →
      Records machine arguments document (recordInto machine.logarithm document none source).1
        (recordInto machine.logarithm document none source).2 := by
    rintro _ rfl
    rw [Records, noKey]
  cases decoded : recording with
  | error reason =>
      have told := recordInto_unreadable machine.logarithm document
        ("Could not read audio from '" ++ audio.text ++ "': " ++ reason)
      have recorded := records { unreadable := _, signals := [] } (by rw [decoded]; rfl)
      refine ⟨?_, nofun⟩
      rintro _ -
      have runs : reply = _ := runTranscribe_of_captureError given opened recorded told
      rw [runs]
      exact ⟨rfl, rfl⟩
  | ok estimate =>
      refine ⟨nofun, ?_⟩
      rintro _ ⟨⟩
      obtain ⟨frames, tracked, areReal⟩ := Capture.exists_track estimate
      obtain ⟨quiet, tokens, blocks, longer, written⟩ :=
        recordInto_frames machine.logarithm document tells areReal
      refine ⟨frames, blocks, tracked, longer, ?_⟩
      have recorded := records { signals := frames.map .frame } (by
        rw [decoded, Capture.Source.ofRecording, tracked])
      rw [tokens] at recorded
      have runs : reply = _ := runTranscribe_of_tokens given opened recorded quiet
      have fits := (Document.fits_of_readFile readable clear).extends
        Capture.isWord_of_transcript longer
      obtain ⟨after, writes, reads⟩ := Document.readFile_writeFile readable spacing scale fits
      rw [← written] at writes
      have left : reply.tree = after := by
        rw [runs]
        exact tree_writeTranscript (ne_empty_of_readFile readable) writes
      rw [left]
      exact reads

/-- A recording of the pitch that concerts are tuned to, a little longer than the stability
window. -/
def concertPitch : Capture.Estimate :=
  ⟨List.replicate 14 440, List.replicate 14 0.95⟩

theorem commits_concertPitch {frames : List (Frame Amount)}
    (tracked : ({} : Detector).track concertPitch = .ok frames) :
    (Filter.standard.commits (Pitch.ofAmount .ofOne) frames).map Prod.fst = [69] := by
  have heard : (({} : Detector).track concertPitch).toOption.map (fun frames =>
      (Filter.standard.commits (Pitch.ofAmount .ofOne) frames).map Prod.fst) = some [69] := by
    decide +kernel
  rw [tracked] at heard
  exact Option.some.inj heard

/-- A tone goes to the end of the last of two paragraphs, and the file stays as it is when the
recording cannot be decoded. -/
theorem transcript_is_appended_to_paragraphs :
    let song : List UInt8 := [0x31, 0x20, 0x32, 0x0D, 0x0A, 0x20, 0x0A, 0x33, 0x20, 0x0A]
    let tree : FileTree Database :=
      ⟨[(⟨"", ["song.txt"]⟩, .file song), (⟨"", ["take.wav"]⟩, .file [0])]⟩
    let machine : Machine :=
      { tree
        environment := fun _ => none
        input := ""
        freshOwner := ""
        now := ""
        decodeScore := fun _ => .error ""
        decodeRecording := fun octets =>
          if octets.isEmpty then .error "no audio" else .ok concertPitch
        tools := .absent
        logarithm := .ofOne }
    let transcribed (audio : String) : Reply :=
      runTranscribe machine [("AUDIO", .text audio), ("--append-to", .text "song.txt")]
    (∀ reach, Document.readFile reach (transcribed "take.wav").tree (Path.ofText "song.txt") {} =
        .ok { title := "song", blocks := [⟨.melody, "1 2"⟩, ⟨.melody, "3 6"⟩] }) ∧
      (transcribed "lost.wav").status = 1 ∧ (transcribed "lost.wav").tree = tree := by
  intro song tree machine transcribed
  have reads : tree.readText (Path.ofText "song.txt") = .ok "1 2\n \n3 \n" := by
    decide +kernel
  have form : Document.isStoredForm (Path.ofText "song.txt") = false := by
    decide +kernel
  have title : Document.titleOf (Path.ofText "song.txt") = "song" := by
    decide +kernel
  have paragraphs : Text.paragraphs "1 2\n \n3 \n".toList = ["1 2".toList, "3".toList] := by
    decide +kernel
  have readable : Document.readFile machine.reach machine.tree (Path.ofText "song.txt") {} =
      .ok { title := "song", blocks := [⟨.melody, "1 2"⟩, ⟨.melody, "3"⟩] } := by
    refine Document.readFile_eq_ok_iff.mpr ⟨_, reads, ?_⟩
    rw [Document.ofFileText?, form, title, Document.ofText, paragraphs]
    rfl
  have clear : ∀ block ∈ [(⟨.melody, "1 2"⟩ : Block), ⟨.melody, "3"⟩],
      Text.Utf8.encodingFault? block.content = none := by
    decide +kernel
  have law := fun audio => transcript_is_appended machine
    [("AUDIO", .text audio), ("--append-to", .text "song.txt")] Pitch.Logarithm.tellsNotes_ofOne
    rfl rfl readable rfl rfl clear
  have taken : tree.readOctets (Path.ofText "take.wav").text = .ok [0] := by
    decide +kernel
  have lost : (tree.readOctets (Path.ofText "lost.wav").text).toOption = none := by
    decide +kernel
  obtain ⟨frames, blocks, tracked, longer, again⟩ := (law "take.wav").2 concertPitch (by
    show machine.decodeRecording
      ((tree.readOctets (Path.ofText "take.wav").text).toOption.getD []) = _
    rw [taken]
    rfl)
  have extended : Document.extended "3" ([69].filterMap (Pitch.captureToken? (Key.atOrDefault 0))) =
      "3 6" := by
    decide +kernel
  have longer : Extends (transcript .ofOne (Key.atOrDefault 0) frames)
      ([⟨.melody, "1 2"⟩] ++ [⟨.melody, "3"⟩]) blocks := longer
  rw [Capture.transcript_eq, commits_concertPitch tracked] at longer
  obtain rfl := longer.eq_of_last
  rw [extended] at again
  refine ⟨again, (law "lost.wav").1 "no audio" ?_⟩
  show machine.decodeRecording
    ((tree.readOctets (Path.ofText "lost.wav").text).toOption.getD []) = _
  rw [lost]
  rfl

end CommandLine

end Jianpu
