import Jianpu.Proofs.CommandLine.Transcription
import Jianpu.Proofs.Document.Encoding
import Jianpu.Proofs.Document.Pitches
import Jianpu.Proofs.Key.Reference

/-! Transcripts in a key that is chosen for them. The key becomes that of the whole document, and
a stored form keeps it: what was in the document then moves to the new key. A text keeps no key:
there what is new moves, since it is read in C. -/

set_option autoImplicit false

namespace Jianpu

open Number (Amount Scalar)
open Capture (Detector Filter sungPitches transcript)
open Document (Extends)

theorem Key.isShort_of_at? {index : Int} {key : Key} (known : Key.at? index = some key) :
    Json.IsShort index := by
  unfold at? at known
  split at known
  · have inside := (List.getElem?_eq_some_iff.mp known).1
    rw [Json.isShort_iff]
    have few : catalog.length ≤ 10 ^ Text.maxNumeralDigits :=
      le_trans (by decide : catalog.length ≤ 10 ^ 2) (Nat.pow_le_pow_right (by decide) (by decide))
    omega
  · cases known

namespace CommandLine

/-- A transcript that has no octets is not reported, and the command has no words for it. -/
theorem writeTranscript_of_fault {reply : Reply} {document : Document} {tokens : List String}
    {target : String} {error : FileError} {after : FileTree Database} (someTarget : target ≠ "")
    (refused : document.writeFile reply.tree (Path.ofText target) = (.error error, after))
    (wordless : error.fault.isSystem = false) :
    (writeTranscript reply document tokens target).status = 1 ∧
      (writeTranscript reply document tokens target).escape = some (.file error) := by
  have some : ¬ target.isEmpty = true := by
    simpa [String.isEmpty_iff] using someTarget
  rw [writeTranscript]
  simp only [some, Bool.false_eq_true, ↓reduceIte, tree_line, refused, Reply.failOn, wordless]
  exact ⟨rfl, rfl⟩

/-- What is recorded in a chosen key goes into the document that has the key. -/
theorem recordInto_chosen (logarithm : Pitch.Logarithm) (document : Document) (index : Int)
    (source : Capture.Source (List Operation)) :
    recordInto logarithm document (some index) source =
      recordInto logarithm (document.setKey index) none source :=
  rfl

section Chosen

variable {machine : Machine} {arguments : Arguments} {target : String} {index : Int}
variable {document : Document} {estimate : Capture.Estimate}
variable {frames : List (Capture.Frame Amount)}
variable (tells : machine.logarithm.TellsNotes)
variable (given : arguments.text? "--append-to" = some target)
variable (chosen : arguments.whole? "--key" = some index)
variable (readable : Document.readFile machine.reach machine.tree (Path.ofText target) {} =
  .ok document)
variable (decoded : machine.decodeRecording ((machine.tree.readOctets
  (Path.ofText ((arguments.text? "AUDIO").getD "")).text).toOption.getD []) = .ok estimate)
variable (tracked : ({} : Detector).track estimate = .ok frames)
variable (areReal : ∀ frame ∈ frames, frame.IsReal)

include tells given chosen readable decoded tracked areReal

/-- The command writes the document in the chosen key, with its transcript. -/
theorem runTranscribe_chosen :
    let tokens := transcript machine.logarithm (Key.atOrDefault index) frames
    ∃ blocks, Extends tokens document.blocks blocks ∧
      runTranscribe machine arguments =
        writeTranscript machine.silence { document with blocks, keyIndex := .whole index } tokens
          target := by
  intro tokens
  obtain ⟨quiet, replied, blocks, longer, written⟩ :=
    recordInto_frames machine.logarithm (document.setKey index) tells areReal
  let recorded := recordInto machine.logarithm (document.setKey index) none
    { signals := frames.map .frame }
  have records : Records machine arguments document recorded.1 recorded.2 := by
    rw [Records, chosen, decoded, Capture.Source.ofRecording, tracked]
    exact recordInto_chosen machine.logarithm document index _
  rw [replied] at records
  have runs := runTranscribe_of_tokens given (transcriptTarget_of_readFile readable) records quiet
  rw [written] at runs
  exact ⟨blocks, longer, runs⟩

/-- Where all contents have octets, the file reads back with the transcript. A stored form keeps
the chosen key, and a text its own. -/
theorem readFile_runTranscribe_chosen (short : Json.IsShort index)
    (clear : ∀ block ∈ document.blocks, Text.Utf8.encodingFault? block.content = none) :
    ∃ again, (∀ later, Document.readFile later (runTranscribe machine arguments).tree
        (Path.ofText target) {} = .ok again) ∧
      again.keyIndex = (if Document.isStoredForm (Path.ofText target) then .whole index
        else document.keyIndex) ∧
      Extends (transcript machine.logarithm (Key.atOrDefault index) frames) document.blocks
        again.blocks := by
  obtain ⟨blocks, longer, runs⟩ :=
    runTranscribe_chosen tells given chosen readable decoded tracked areReal
  obtain ⟨text, reads, holds⟩ := Document.readFile_eq_ok_iff.mp readable
  have readableKey : Json.IsReadable (.whole index) := short
  have fits := (Document.fits_of_readFile readable clear).extends
    Capture.isWord_of_transcript longer
  obtain ⟨kept, again⟩ := Document.ofFileText?_fileText_in holds fits readableKey
  obtain ⟨after, writes, readsAgain⟩ := Document.readFile_of_kept
    (FileTree.isWritable_of_readText reads) kept again
  have left : (runTranscribe machine arguments).tree = after := by
    rw [runs]
    exact tree_writeTranscript (ne_empty_of_readFile readable) writes
  rw [left]
  refine ⟨_, readsAgain, ?_⟩
  split <;> exact ⟨rfl, longer⟩

/-- Where a content has none, the file cannot be written. -/
theorem runTranscribe_of_unencodable {block : Block} (member : block ∈ document.blocks)
    (unclear : Text.Utf8.encodingFault? block.content ≠ none) :
    (runTranscribe machine arguments).status = 1 ∧
      ∃ error, (runTranscribe machine arguments).escape = some (.file error) := by
  obtain ⟨blocks, longer, runs⟩ :=
    runTranscribe_chosen tells given chosen readable decoded tracked areReal
  obtain ⟨text, reads, -⟩ := Document.readFile_eq_ok_iff.mp readable
  have half := Text.encodingFault?_ne_none_iff.mp unclear
  have form := Document.isStoredForm_of_hasHalf readable member half
  obtain ⟨other, among, spelled, otherHalf⟩ := longer.hasHalf Capture.isWord_of_transcript
    (Document.spelled_of_readFile readable) member half
  have within : other ∈ ({ document with blocks, keyIndex := .whole index } : Document).blocks :=
    among
  obtain ⟨fault, after, refused⟩ := Document.writeFile_of_hasHalf
    (FileTree.isWritable_of_readText reads) form within spelled otherHalf
  have wordless : (FileFault.unencodable fault).isSystem = false := rfl
  have unwritten : (Document.writeFile { document with blocks, keyIndex := .whole index }
      machine.silence.tree (Path.ofText target)) =
        (.error ⟨.unencodable fault, (Path.ofText target).text⟩, after) := refused
  obtain ⟨status, escape⟩ :=
    writeTranscript_of_fault (ne_empty_of_readFile readable) unwritten wordless
  rw [runs]
  exact ⟨status, _, escape⟩

end Chosen

/-- The document of a text is in C. -/
theorem tonicClass_of_text {reach : Envelope.Reach} {tree : FileTree Database} {path : Path}
    {document : Document} (read : Document.readFile reach tree path {} = .ok document)
    (plain : Document.isStoredForm path = false) : document.key.tonicClass = 0 := by
  obtain ⟨text, -, holds⟩ := Document.readFile_eq_ok_iff.mp read
  have standard : document = _ := Document.eq_of_ofFileText? holds plain document.blocks
  rw [standard]
  rfl

/-- A transcript that is appended in a chosen key, any of the catalog, to a file that can be read.
Where all contents have octets, the file reads back with the transcript appended. A stored form is
in the chosen key then, and what was in it has moved by the distance of the keys; a text is in C as
before, and what is new in it is off by the tonic of the chosen key. So the old notes are what they
were, and the new ones what was heard, only where nothing moves. Where a content has no octets, the
command ends without words. -/
theorem chosen_key_moves_notes (α : Type) [Scalar α] (machine : Machine) (arguments : Arguments)
    {target reference : String} {index : Int} {document : Document}
    (tells : machine.logarithm.TellsNotes)
    (given : arguments.text? "--append-to" = some target)
    (chosen : arguments.whole? "--key" = some index) (named : Key.find reference = .ok index)
    (readable : Document.readFile machine.reach machine.tree (Path.ofText target) {} =
      .ok document) :
    let audio := Path.ofText ((arguments.text? "AUDIO").getD "")
    let recording :=
      machine.decodeRecording ((machine.tree.readOctets audio.text).toOption.getD [])
    let reply := runTranscribe machine arguments
    let key := Key.atOrDefault index
    let isStored := Document.isStoredForm (Path.ofText target)
    ∀ estimate, recording = .ok estimate →
      ∃ frames, ({} : Detector).track estimate = .ok frames ∧
        let tokens := transcript machine.logarithm key frames
        let sung := sungPitches machine.logarithm key frames
        ((∀ block ∈ document.blocks, Text.Utf8.encodingFault? block.content = none) →
          ∃ again,
            (∀ later, Document.readFile later reply.tree (Path.ofText target) {} = .ok again) ∧
            again.keyIndex = (if isStored then .whole index else document.keyIndex) ∧
            Extends tokens document.blocks again.blocks ∧
            again.pitches α =
              (document.pitches α).map (· + (again.key.tonicClass - document.key.tonicClass)) ++
                sung.map (· + (again.key.tonicClass - key.tonicClass)) ∧
            (again.pitches α = document.pitches α ++ sung ↔
              if isStored then
                document.pitches α = [] ∨ key.tonicClass = document.key.tonicClass
              else sung = [] ∨ key.tonicClass = 0)) ∧
        ((∃ block ∈ document.blocks, Text.Utf8.encodingFault? block.content ≠ none) →
          reply.status = 1 ∧ ∃ error, reply.escape = some (.file error)) := by
  intro audio recording reply key isStored estimate decoded
  obtain ⟨frames, tracked, areReal⟩ := Capture.exists_track estimate
  refine ⟨frames, tracked, fun clear => ?_, ?_⟩
  · obtain ⟨found, inCatalog⟩ := Key.exists_at?_of_find named
    obtain ⟨again, readsAgain, inKey, longer⟩ := readFile_runTranscribe_chosen tells given chosen
      readable decoded tracked areReal (Key.isShort_of_at? inCatalog) clear
    have pitches := Document.pitches_of_extends α again longer
      (Document.known_of_readFile readable)
    refine ⟨again, readsAgain, inKey, longer, pitches, ?_⟩
    rw [pitches, moved_append_eq_iff]
    by_cases form : isStored = true
    · have inChosen : again.key = key := by
        rw [Document.key, inKey, if_pos form]
        rfl
      rw [if_pos form, inChosen, sub_self, sub_eq_zero]
      exact and_iff_left (.inr rfl)
    · have plain : Document.isStoredForm (Path.ofText target) = false := by
        simpa using form
      rw [if_neg form, tonicClass_of_text (readsAgain machine.reach) plain,
        tonicClass_of_text readable plain, sub_self, zero_sub, neg_eq_zero]
      exact and_iff_right (.inr rfl)
  · rintro ⟨block, member, unclear⟩
    exact runTranscribe_of_unencodable tells given chosen readable decoded tracked areReal member
      unclear

/-! A song of one note, in both forms -/

/-- The note `1` in a stored form and in a text, and a recording. -/
def songTree : FileTree Database :=
  ⟨[(⟨"", ["song.json"]⟩, .file [0x5B, 0x22, 0x31, 0x22, 0x5D]),
    (⟨"", ["song.txt"]⟩, .file [0x31, 0x0A]), (⟨"", ["take.wav"]⟩, .file [])]⟩

/-- A machine that hears something in the recording. -/
def songMachine (recording : Capture.Estimate) : Machine where
  tree := songTree
  environment := fun _ => none
  input := ""
  freshOwner := ""
  now := ""
  decodeScore := fun _ => .error ""
  decodeRecording := fun _ => .ok recording
  tools := .absent
  logarithm := .ofOne

/-- The document of the song. -/
def song : Document :=
  { title := "song", blocks := [⟨.melody, "1"⟩] }

theorem readFile_song : ∀ target ∈ ["song.json", "song.txt"],
    Document.readFile .usual songTree (Path.ofText target) {} = .ok song := by
  have stored : songTree.readText (Path.ofText "song.json") = .ok "[\"1\"]" ∧
      Document.isStoredForm (Path.ofText "song.json") = true ∧
      Document.titleOf (Path.ofText "song.json") = "song" := by
    decide +kernel
  have text : songTree.readText (Path.ofText "song.txt") = .ok "1\n" ∧
      Document.isStoredForm (Path.ofText "song.txt") = false ∧
      Document.titleOf (Path.ofText "song.txt") = "song" ∧
      Text.paragraphs "1\n".toList = ["1".toList] := by
    decide +kernel
  obtain ⟨storedReads, form, storedTitle⟩ := stored
  obtain ⟨textReads, plain, title, paragraphs⟩ := text
  simp only [List.forall_mem_cons, List.not_mem_nil, false_implies, implies_true, and_true]
  constructor
  · refine Document.readFile_eq_ok_iff.mpr ⟨_, storedReads, ?_⟩
    rw [Document.ofFileText?, form, storedTitle]
    rfl
  · refine Document.readFile_eq_ok_iff.mpr ⟨_, textReads, ?_⟩
    rw [Document.ofFileText?, plain, title, Document.ofText, paragraphs]
    rfl

theorem pitches_song : song.pitches Rat = [60] := by
  decide +kernel

theorem clear_song :
    ∀ block ∈ song.blocks, Text.Utf8.encodingFault? block.content = none := by
  decide +kernel

/-- The command that transcribes the recording into the song, in G. -/
def takeInG (target : String) : Arguments :=
  [("AUDIO", .text "take.wav"), ("--key", .whole 1), ("--append-to", .text target)]

/-- A tone that is appended in G moves the note before it in a stored form, and is moved itself in
a text. -/
theorem chosen_key_moves_notes_of_song :
    let reply (target : String) := runTranscribe (songMachine concertPitch) (takeInG target)
    (∃ again, (∀ reach, Document.readFile reach (reply "song.json").tree
        (Path.ofText "song.json") {} = .ok again) ∧ again.pitches Rat = [67, 69]) ∧
      ∃ again, (∀ reach, Document.readFile reach (reply "song.txt").tree
        (Path.ofText "song.txt") {} = .ok again) ∧ again.pitches Rat = [60, 62] := by
  intro reply
  have each : ∀ target ∈ ["song.json", "song.txt"], ∃ again,
      (∀ reach, Document.readFile reach (reply target).tree (Path.ofText target) {} =
        .ok again) ∧
      again.pitches Rat =
        if Document.isStoredForm (Path.ofText target) then [67, 69] else [60, 62] := by
    intro target among
    have named : Key.find "G" = .ok 1 := rfl
    obtain ⟨frames, tracked, appended, -⟩ := chosen_key_moves_notes Rat (songMachine concertPitch)
      (takeInG target) Pitch.Logarithm.tellsNotes_ofOne rfl rfl named
      (readFile_song target among) concertPitch rfl
    have sung : sungPitches .ofOne (Key.atOrDefault 1) frames = [69] := by
      rw [sungPitches, commits_concertPitch tracked]
      decide +kernel
    obtain ⟨again, reads, inKey, -, pitches, -⟩ := appended clear_song
    have sungHere : sungPitches (songMachine concertPitch).logarithm (Key.atOrDefault 1) frames =
        [69] := sung
    refine ⟨again, reads, ?_⟩
    have inC : song.key.tonicClass = 0 := rfl
    rw [pitches, pitches_song, sungHere, Document.key, inKey, inC]
    split <;> rfl
  have forms : Document.isStoredForm (Path.ofText "song.json") = true ∧
      Document.isStoredForm (Path.ofText "song.txt") = false := by
    decide +kernel
  have stored := each "song.json" (by simp)
  have text := each "song.txt" (by simp)
  rw [forms.1, if_pos rfl] at stored
  rw [forms.2, if_neg Bool.false_ne_true] at text
  exact ⟨stored, text⟩

/-- A silent recording that is appended in G moves the note that was there. -/
theorem chosen_key_moves_old_note :
    ∃ document again,
      Document.readFile .usual songTree (Path.ofText "song.json") {} = .ok document ∧
        Document.readFile .usual (runTranscribe (songMachine ⟨[], []⟩) (takeInG "song.json")).tree
          (Path.ofText "song.json") {} = .ok again ∧
        document.pitches Rat = [60] ∧ again.pitches Rat = [67] := by
  let machine := songMachine ⟨[], []⟩
  have tells : machine.logarithm.TellsNotes := Pitch.Logarithm.tellsNotes_ofOne
  have readable : Document.readFile machine.reach machine.tree (Path.ofText "song.json") {} =
      .ok song := readFile_song "song.json" (by decide)
  have form : Document.isStoredForm (Path.ofText "song.json") = true := by
    decide +kernel
  obtain ⟨frames, tracked, areReal⟩ := Capture.exists_track ⟨[], []⟩
  have silent : frames = [] := by
    obtain ⟨time, told⟩ := Capture.timeOf_standard 0
    rw [Detector.track, told] at tracked
    exact (Except.ok.inj tracked).symm
  subst silent
  have given : (takeInG "song.json").text? "--append-to" = some "song.json" := rfl
  obtain ⟨again, reads, inKey, longer⟩ := readFile_runTranscribe_chosen tells given rfl readable
    rfl tracked areReal (by decide) clear_song
  refine ⟨song, again, readable, reads .usual, pitches_song, ?_⟩
  rw [Document.pitches_of_extends Rat again longer (Document.known_of_readFile readable),
    pitches_song, Document.key, inKey, form]
  rfl

end CommandLine

end Jianpu
