import Jianpu.CommandLine.Sheets
import Jianpu.Proofs.CommandLine.Replies
import Jianpu.Proofs.Sheet.Writing

/-! How the commands on notation end that read a document: drawing its sheet and writing its melody
as a MIDI file. -/

set_option autoImplicit false

namespace Jianpu.CommandLine

open Number (Amount Divisible)
open Text.Markup

variable {machine : Machine} {arguments : Arguments}

def inputPath (arguments : Arguments) : Path :=
  Path.ofText ((arguments.text? "INPUT").getD "")

/-- The path that a command writes to, as it was typed. -/
def outputText (arguments : Arguments) : String :=
  (arguments.text? "--output").getD ""

/-- A document that a command reads, with what is given of it in place of its own. -/
abbrev Reads (machine : Machine) (arguments : Arguments) (overrides : Document.Overrides)
    (document : Document) : Prop :=
  Document.readFile machine.reach machine.tree (inputPath arguments) overrides = .ok document

/-! Writing MIDI files -/

def midiOverrides (arguments : Arguments) : Document.Overrides :=
  { keyIndex := arguments.whole? "--key", tempo := arguments.whole? "--tempo" }

/-- A document that is read to be written as a MIDI file, and its tones. -/
structure Plays (machine : Machine) (arguments : Arguments) (document : Document)
    (tones : List (Tone Float)) : Prop where
  reads : Reads machine arguments (midiOverrides arguments) document
  plays : Timeline.ofDocument document document.tempo = .ok tones

/-- A document that is read, and the file that is made of it. -/
structure MakesMidi (machine : Machine) (arguments : Arguments) (document : Document)
    (tones : List (Tone Float)) (file : Midi.File) : Prop extends
    Plays machine arguments document tones where
  makes : Midi.File.ofTones tones document.tempo.toFloat 80 document.title = .ok file

def midiLine (arguments : Arguments) (tones : List (Tone Float)) : String :=
  "Wrote " ++ toString tones.length ++ " note(s) to " ++ outputText arguments

/-- The faults on which writing a MIDI file ends without words. -/
inductive MidiBreaks (machine : Machine) (arguments : Arguments) : Escape → Prop where
  | unreadable {error : FileError} :
      machine.tree.readText (inputPath arguments) = .error error → error.fault.isSystem = false →
      MidiBreaks machine arguments (.file error)
  | tooDeep :
      Document.IsTooDeep machine.reach machine.tree (inputPath arguments) →
      MidiBreaks machine arguments .tooDeep
  | hugeTempo {document : Document} :
      Reads machine arguments (midiOverrides arguments) document →
      document.tempo.toFloat? = none → MidiBreaks machine arguments (.number .tooLarge)
  | zeroTempo {document : Document} {tempo : Float} :
      Reads machine arguments (midiOverrides arguments) document →
      document.tempo.toFloat? = some tempo → Divisible.isZero tempo = true →
      MidiBreaks machine arguments (.number .divisionByZero)
  | unmeasured {document : Document} {tones : List (Tone Float)} {fault : Number.Fault} :
      Plays machine arguments document tones →
      Midi.quarterMicrosOf document.tempo.toFloat = .error fault →
      MidiBreaks machine arguments (.midi (.number fault))
  | notLatin {document : Document} {tones : List (Tone Float)} {quarterMicros : Int} :
      Plays machine arguments document tones →
      Midi.quarterMicrosOf document.tempo.toFloat = .ok quarterMicros →
      Midi.latin1? document.title = none → MidiBreaks machine arguments (.midi .nameNotLatin)
  | uncounted {document : Document} {tones : List (Tone Float)} {quarterMicros : Int}
      {name : List UInt8} {fault : Number.Fault} :
      Plays machine arguments document tones →
      Midi.quarterMicrosOf document.tempo.toFloat = .ok quarterMicros →
      Midi.latin1? document.title = some name →
      tones.mapM (Midi.noteOf document.tempo.toFloat) = .error fault →
      MidiBreaks machine arguments (.midi (.number fault))
  | unusable {document : Document} {tones : List (Tone Float)} {file : Midi.File}
      {fault : FileFault} :
      MakesMidi machine arguments document tones file →
      machine.tree.placeToWrite (outputText arguments) = .error fault → fault.isSystem = false →
      MidiBreaks machine arguments (.file ⟨fault, outputText arguments⟩)
  | outOfField {document : Document} {tones : List (Tone Float)} {file : Midi.File} {place : Path} :
      MakesMidi machine arguments document tones file →
      machine.tree.placeToWrite (outputText arguments) = .ok place →
      file.quarterMicros < 0 ∨ 0x100000000 ≤ file.quarterMicros →
      MidiBreaks machine arguments (.midi .outOfField)
  | unshowable {document : Document} {tones : List (Tone Float)} {file : Midi.File}
      {octets : List UInt8} {after : FileTree Database} :
      MakesMidi machine arguments document tones file → file.octets = .ok octets →
      machine.tree.writeOctets (outputText arguments) octets = .ok after →
      ¬ IsShowable (midiLine arguments tones) → MidiBreaks machine arguments .unshowable

/-- How writing a MIDI file ends otherwise. -/
inductive MidiEnds (machine : Machine) (arguments : Arguments) (reply : Reply) : Prop where
  | unreadable {error : FileError} :
      machine.tree.readText (inputPath arguments) = .error error → error.fault.isSystem = true →
      reply.Reports "" (midiFailure ++ error.message) → reply.tree = machine.tree →
      MidiEnds machine arguments reply
  | unusable {document : Document} {tones : List (Tone Float)} {file : Midi.File}
      {fault : FileFault} :
      MakesMidi machine arguments document tones file →
      machine.tree.placeToWrite (outputText arguments) = .error fault → fault.isSystem = true →
      reply.Reports "" (midiFailure ++ FileError.message ⟨fault, outputText arguments⟩) →
      reply.tree = machine.tree → MidiEnds machine arguments reply
  | written {document : Document} {tones : List (Tone Float)} {file : Midi.File}
      {octets : List UInt8} :
      MakesMidi machine arguments document tones file → file.octets = .ok octets →
      reply.Tells "" [midiLine arguments tones] →
      reply.tree.readOctets (outputText arguments) = .ok octets → MidiEnds machine arguments reply

theorem ofDocument_of_isZero {document : Document} {tempo : Amount} {x : Float}
    (measured : tempo.toFloat? = some x) (zero : Divisible.isZero x = true) :
    Timeline.ofDocument document tempo = .error .divisionByZero := by
  rw [Timeline.ofDocument, measured]
  simp only [Timeline.schedule, Timeline.secondsPerBeat, zero, ↓reduceIte]
  rfl

/-- A document has tones unless its tempo is zero or beyond binary64. -/
theorem ofDocument_cases (document : Document) (tempo : Amount) :
    tempo.toFloat? = none ∨
      (∃ x, tempo.toFloat? = some x ∧ Divisible.isZero x = true) ∨
        ∃ tones, Timeline.ofDocument document tempo = .ok tones := by
  cases measured : tempo.toFloat? with
  | none => exact .inl rfl
  | some x =>
      right
      cases zero : Divisible.isZero x with
      | true => exact .inl ⟨x, rfl, zero⟩
      | false =>
          right
          rw [Timeline.ofDocument, measured]
          simp only [Timeline.schedule, Timeline.secondsPerBeat, zero, Bool.false_eq_true,
            ↓reduceIte]
          exact ⟨_, rfl⟩

/-- The file of tones is refused for its tempo, for its name, or for a time, in this order. -/
theorem ofTones_cases (tones : List (Tone Float)) (tempo : Float) (name : String) :
    (∃ fault, Midi.quarterMicrosOf tempo = .error fault ∧
      Midi.File.ofTones tones tempo 80 name = .error (.number fault)) ∨
    (∃ quarterMicros, Midi.quarterMicrosOf tempo = .ok quarterMicros ∧
      Midi.latin1? name = none ∧ Midi.File.ofTones tones tempo 80 name = .error .nameNotLatin) ∨
    (∃ quarterMicros octets fault, Midi.quarterMicrosOf tempo = .ok quarterMicros ∧
      Midi.latin1? name = some octets ∧ tones.mapM (Midi.noteOf tempo) = .error fault ∧
      Midi.File.ofTones tones tempo 80 name = .error (.number fault)) ∨
    ∃ file, Midi.File.ofTones tones tempo 80 name = .ok file ∧ file.velocity = 80 := by
  cases measured : Midi.quarterMicrosOf tempo with
  | error fault => exact .inl ⟨fault, rfl, by rw [Midi.File.ofTones, measured]; rfl⟩
  | ok quarterMicros =>
      right
      cases latin : Midi.latin1? name with
      | none => exact .inl ⟨_, rfl, rfl, by rw [Midi.File.ofTones, measured, latin]; rfl⟩
      | some octets =>
          right
          cases counted : tones.mapM (Midi.noteOf tempo) with
          | error fault =>
              exact .inl ⟨_, _, _, rfl, rfl, rfl,
                by rw [Midi.File.ofTones, measured, latin, counted]; rfl⟩
          | ok notes =>
              exact .inr ⟨⟨quarterMicros, octets, 80, notes⟩,
                by rw [Midi.File.ofTones, measured, latin, counted]; rfl, rfl⟩

theorem octets_cases {file : Midi.File} (velocity : file.velocity = 80) :
    (file.quarterMicros < 0 ∨ 0x100000000 ≤ file.quarterMicros) ∧
        file.octets = .error .outOfField ∨
      ∃ octets, file.octets = .ok octets ∧
        ¬ (file.quarterMicros < 0 ∨ 0x100000000 ≤ file.quarterMicros) := by
  have quiet : ¬ (file.notes ≠ [] ∧ (file.velocity < 0 ∨ 255 < file.velocity)) := by
    rw [velocity]
    omega
  by_cases outside : file.quarterMicros < 0 ∨ 0x100000000 ≤ file.quarterMicros
  · refine .inl ⟨outside, ?_⟩
    rw [Midi.File.octets, Midi.File.tracks, if_pos outside]
    rfl
  · right
    rw [Midi.File.octets, Midi.File.tracks, if_neg outside, if_neg quiet]
    exact ⟨_, rfl, outside⟩

/-- The command as it goes on from what it reads. -/
def midiReply (machine : Machine) (arguments : Arguments) : Except Document.ReadError Document → Reply
  | .error .tooDeep => machine.silence.escaping .tooDeep
  | .error (.file error) => machine.silence.failOn midiFailure error
  | .ok document =>
    match Timeline.ofDocument document document.tempo with
    | .error fault => machine.silence.escaping (.number fault)
    | .ok tones =>
      match Midi.File.ofTones tones document.tempo.toFloat 80 document.title with
      | .error error => machine.silence.escaping (.midi error)
      | .ok file => writeMidi machine (outputText arguments) file tones.length

theorem runMidi_eq (machine : Machine) (arguments : Arguments) :
    runMidi machine arguments = midiReply machine arguments
      (Document.readFile machine.reach machine.tree (inputPath arguments)
        (midiOverrides arguments)) := by
  unfold runMidi inputPath midiOverrides
  dsimp only
  split
  · rename_i deep
    rw [deep]
    rfl
  · rename_i error fails
    rw [fails]
    rfl
  · rename_i document reads
    rw [reads]
    rfl

theorem runMidi_of_error {error : FileError}
    (fails : machine.tree.readText (inputPath arguments) = .error error) :
    runMidi machine arguments = machine.silence.failOn midiFailure error := by
  rw [runMidi_eq, Document.readFile_of_readText_error fails]
  rfl

theorem runMidi_of_isTooDeep
    (deep : Document.IsTooDeep machine.reach machine.tree (inputPath arguments)) :
    runMidi machine arguments = machine.silence.escaping .tooDeep := by
  rw [runMidi_eq, Document.readFile_of_isTooDeep deep]
  rfl

theorem runMidi_of_fault {document : Document} {fault : Number.Fault}
    (reads : Reads machine arguments (midiOverrides arguments) document)
    (silent : Timeline.ofDocument document document.tempo = .error fault) :
    runMidi machine arguments = machine.silence.escaping (.number fault) := by
  simp only [runMidi_eq, reads, midiReply, silent]

theorem runMidi_of_midi_error {document : Document} {tones : List (Tone Float)} {error : Midi.Error}
    (playing : Plays machine arguments document tones)
    (unmade : Midi.File.ofTones tones document.tempo.toFloat 80 document.title = .error error) :
    runMidi machine arguments = machine.silence.escaping (.midi error) := by
  simp only [runMidi_eq, playing.reads, midiReply, playing.plays, unmade]

theorem runMidi_of_makes {document : Document} {tones : List (Tone Float)} {file : Midi.File}
    (making : MakesMidi machine arguments document tones file) :
    runMidi machine arguments = writeMidi machine (outputText arguments) file tones.length := by
  simp only [runMidi_eq, making.reads, midiReply, making.plays, making.makes]

theorem writeMidi_of_fault {output : String} {fault : FileFault}
    (unusable : machine.tree.placeToWrite output = .error fault) (file : Midi.File) (count : Nat) :
    writeMidi machine output file count = machine.silence.failOn midiFailure ⟨fault, output⟩ := by
  simp only [writeMidi, FileTree.writeOctets, unusable]

theorem writeMidi_of_octets_error {output : String} {place : Path} {file : Midi.File}
    {error : Midi.Error} (found : machine.tree.placeToWrite output = .ok place)
    (refused : file.octets = .error error) (count : Nat) :
    (writeMidi machine output file count).escape = some (.midi error) := by
  simp only [writeMidi, FileTree.writeOctets, found, refused]
  rfl

theorem writeMidi_of_octets {output : String} {file : Midi.File} {octets : List UInt8}
    {after : FileTree Database} (written : file.octets = .ok octets)
    (wrote : machine.tree.writeOctets output octets = .ok after) (count : Nat) :
    writeMidi machine output file count =
      ({ tree := after } : Reply).line
        ("Wrote " ++ toString count ++ " note(s) to " ++ output) := by
  simp only [writeMidi, written, Except.toOption, Option.getD_some, wrote]

theorem MakesMidi.velocity {document : Document} {tones : List (Tone Float)} {file : Midi.File}
    (making : MakesMidi machine arguments document tones file) : file.velocity = 80 := by
  rcases ofTones_cases tones document.tempo.toFloat document.title with
    ⟨_, -, fails⟩ | ⟨_, -, -, fails⟩ | ⟨_, _, _, -, -, -, fails⟩ | ⟨made, makes, velocity⟩
  · cases making.makes.symm.trans fails
  · cases making.makes.symm.trans fails
  · cases making.makes.symm.trans fails
  · cases making.makes.symm.trans makes
    exact velocity

theorem escape_of_midiBreaks {escape : Escape} (breaks : MidiBreaks machine arguments escape) :
    (runMidi machine arguments).escape = some escape := by
  cases breaks with
  | unreadable fails unworded =>
      rw [runMidi_of_error fails, Reply.failOn, if_neg (by simp [unworded])]
      rfl
  | tooDeep deep =>
      rw [runMidi_of_isTooDeep deep]
      rfl
  | hugeTempo reads huge =>
      rw [runMidi_of_fault reads (by rw [Timeline.ofDocument, huge])]
      rfl
  | zeroTempo reads measured zero =>
      rw [runMidi_of_fault reads (ofDocument_of_isZero measured zero)]
      rfl
  | unmeasured playing fails =>
      rw [runMidi_of_midi_error playing (by rw [Midi.File.ofTones, fails]; rfl)]
      rfl
  | notLatin playing measured fails =>
      rw [runMidi_of_midi_error playing (by rw [Midi.File.ofTones, measured, fails]; rfl)]
      rfl
  | uncounted playing measured latin fails =>
      rw [runMidi_of_midi_error playing (by rw [Midi.File.ofTones, measured, latin, fails]; rfl)]
      rfl
  | unusable making fails unworded =>
      rw [runMidi_of_makes making, writeMidi_of_fault fails, Reply.failOn,
        if_neg (by simp [unworded])]
      rfl
  | outOfField making found outside =>
      rcases octets_cases making.velocity with ⟨-, refused⟩ | ⟨octets, written, inside⟩
      · rw [runMidi_of_makes making, writeMidi_of_octets_error found refused]
      · exact absurd outside inside
  | unshowable making written wrote hidden =>
      rw [runMidi_of_makes making, writeMidi_of_octets written wrote]
      exact (Reply.isQuiet_of_tree _).escape_line hidden

theorem midi_cases_of_makes {document : Document} {tones : List (Tone Float)} {file : Midi.File}
    (making : MakesMidi machine arguments document tones file) :
    (∃ escape, MidiBreaks machine arguments escape) ∨
      MidiEnds machine arguments (runMidi machine arguments) := by
  cases found : machine.tree.placeToWrite (outputText arguments) with
  | error fault =>
      cases system : fault.isSystem with
      | false => exact .inl ⟨_, .unusable making found system⟩
      | true =>
          refine .inr (.unusable making found system ?_ ?_)
          · rw [runMidi_of_makes making, writeMidi_of_fault found]
            exact (Reply.isQuiet_of_tree machine.tree).failOn system _
          · rw [runMidi_of_makes making, writeMidi_of_fault found, Reply.tree_failOn]
            rfl
  | ok place =>
      rcases octets_cases making.velocity with ⟨outside, -⟩ | ⟨octets, written, -⟩
      · exact .inl ⟨_, .outOfField making found outside⟩
      · have wrote : machine.tree.writeOctets (outputText arguments) octets =
            .ok (machine.tree.put place (.file octets)) := by
          rw [FileTree.writeOctets, found]
        by_cases showable : IsShowable (midiLine arguments tones)
        · right
          have runs := runMidi_of_makes making
          rw [writeMidi_of_octets written wrote, ← midiLine] at runs
          refine .written making written ?_ ?_
          · rw [runs]
            exact (Reply.isQuiet_of_tree _).tells_line showable
          · rw [runs, tree_line]
            exact FileTree.readOctets_of_status (FileTree.status_of_writeOctets wrote)
        · exact .inl ⟨_, .unshowable making written wrote showable⟩

theorem midi_cases (machine : Machine) (arguments : Arguments) :
    (∃ escape, MidiBreaks machine arguments escape) ∨
      MidiEnds machine arguments (runMidi machine arguments) := by
  rcases Document.readFile_cases machine.reach machine.tree (inputPath arguments)
      (midiOverrides arguments) with
    ⟨error, fails⟩ | deep | ⟨document, reads⟩
  · cases system : error.fault.isSystem with
    | false => exact .inl ⟨_, .unreadable fails system⟩
    | true =>
        refine .inr (.unreadable fails system ?_ ?_)
        · rw [runMidi_of_error fails]
          exact (Reply.isQuiet_of_tree machine.tree).failOn system _
        · rw [runMidi_of_error fails, Reply.tree_failOn]
          rfl
  · exact .inl ⟨_, .tooDeep deep⟩
  · rcases ofDocument_cases document document.tempo with huge | ⟨x, measured, zero⟩ | ⟨tones, plays⟩
    · exact .inl ⟨_, .hugeTempo reads huge⟩
    · exact .inl ⟨_, .zeroTempo reads measured zero⟩
    · have playing : Plays machine arguments document tones := ⟨reads, plays⟩
      rcases ofTones_cases tones document.tempo.toFloat document.title with
        ⟨_, fails, -⟩ | ⟨_, measured, fails, -⟩ | ⟨_, _, _, measured, latin, fails, -⟩ |
          ⟨file, makes, -⟩
      · exact .inl ⟨_, .unmeasured playing fails⟩
      · exact .inl ⟨_, .notLatin playing measured fails⟩
      · exact .inl ⟨_, .uncounted playing measured latin fails⟩
      · exact midi_cases_of_makes ⟨playing, makes⟩

/-! Drawing sheets -/

def renderOverrides (arguments : Arguments) : Document.Overrides :=
  { title := arguments.text? "--title", album := arguments.text? "--album"
    keyIndex := arguments.whole? "--key" }

/-- The format of a sheet, a page unless it is told. -/
def renderFormat (arguments : Arguments) : SheetFormat :=
  (arguments.format? "--format").getD .html

def renderTarget (arguments : Arguments) : Path :=
  ((arguments.text? "--output").map Path.ofText).getD
    (defaultTarget (renderFormat arguments) (inputPath arguments))

/-- A document as it is drawn. -/
def drawn (arguments : Arguments) (document : Document) : Document :=
  withSettings document (arguments.whole? "--spacing") (arguments.whole? "--scale")

def sheetOf (machine : Machine) (arguments : Arguments) (document : Document) :
    Sheet.Outcome Database :=
  Sheet.exportTo machine.tools (renderFormat arguments) (drawn arguments document) machine.tree
    (renderTarget arguments)

def renderFailure (arguments : Arguments) : String :=
  "Could not render '" ++ (arguments.text? "INPUT").getD "" ++ "' — "

def wroteLine (path : Path) : String :=
  "Wrote " ++ path.text

/-- The faults on which drawing a sheet ends without words. -/
inductive RenderBreaks (machine : Machine) (arguments : Arguments) : Escape → Prop where
  | tooDeep :
      Document.IsTooDeep machine.reach machine.tree (inputPath arguments) →
      RenderBreaks machine arguments .tooDeep
  | unmade {document : Document} {error : SheetError} :
      Reads machine arguments (renderOverrides arguments) document →
      (sheetOf machine arguments document).result = .error error →
      Sheet.Fails machine.tools (drawn arguments document) error →
      RenderBreaks machine arguments (.ofSheetError error)
  | unshowable {document : Document} {written : List Path} {path : Path} :
      Reads machine arguments (renderOverrides arguments) document →
      (sheetOf machine arguments document).result = .ok written → path ∈ written →
      ¬ IsShowable (wroteLine path) → RenderBreaks machine arguments .unshowable

/-- How drawing a sheet ends otherwise. -/
inductive RenderEnds (machine : Machine) (arguments : Arguments) (reply : Reply) : Prop where
  | unreadable {error : FileError} :
      machine.tree.readText (inputPath arguments) = .error error →
      reply.Reports "" (renderFailure arguments ++ error.message) → reply.tree = machine.tree →
      RenderEnds machine arguments reply
  | unmade {document : Document} {error : SheetError} {reason : String} :
      Reads machine arguments (renderOverrides arguments) document →
      (sheetOf machine arguments document).result = .error error → error.message? = some reason →
      reply.Reports "" (renderFailure arguments ++ reason) → RenderEnds machine arguments reply
  | written {document : Document} {written : List Path} :
      Reads machine arguments (renderOverrides arguments) document →
      Sheet.Exported machine.tools (drawn arguments document) reply.tree (renderTarget arguments)
        (renderFormat arguments) written →
      reply.Tells "" (written.map wroteLine) → RenderEnds machine arguments reply

theorem isRooted_renderTarget (arguments : Arguments) : (renderTarget arguments).IsRooted := by
  unfold renderTarget
  cases arguments.text? "--output" with
  | some text => exact Path.isRooted_ofText text
  | none => cases renderFormat arguments <;> exact Path.isRooted_ofText _

def exportReply (arguments : Arguments) (outcome : Sheet.Outcome Database) : Reply :=
  match outcome.result with
  | .ok written => (written.map wroteLine).foldl Reply.line { tree := outcome.tree }
  | .error error =>
    match error.message? with
    | some reason => ({ tree := outcome.tree } : Reply).fail (renderFailure arguments ++ reason)
    | none => ({ tree := outcome.tree } : Reply).escaping (.ofSheetError error)

def renderReply (machine : Machine) (arguments : Arguments) :
    Except Document.ReadError Document → Reply
  | .error .tooDeep => machine.silence.escaping .tooDeep
  | .error (.file error) => machine.silence.fail (renderFailure arguments ++ error.message)
  | .ok document => exportReply arguments (sheetOf machine arguments document)

theorem runRender_eq (machine : Machine) (arguments : Arguments) :
    runRender machine arguments = renderReply machine arguments
      (Document.readFile machine.reach machine.tree (inputPath arguments)
        (renderOverrides arguments)) := by
  unfold runRender inputPath renderOverrides
  dsimp only
  split
  · rename_i deep
    rw [deep]
    rfl
  · rename_i error fails
    rw [fails]
    rfl
  · rename_i document reads
    rw [reads]
    rfl

theorem runRender_of_error {error : FileError}
    (fails : machine.tree.readText (inputPath arguments) = .error error) :
    runRender machine arguments = machine.silence.fail (renderFailure arguments ++ error.message) := by
  rw [runRender_eq, Document.readFile_of_readText_error fails]
  rfl

theorem runRender_of_isTooDeep
    (deep : Document.IsTooDeep machine.reach machine.tree (inputPath arguments)) :
    runRender machine arguments = machine.silence.escaping .tooDeep := by
  rw [runRender_eq, Document.readFile_of_isTooDeep deep]
  rfl

theorem runRender_of_reads {document : Document}
    (reads : Reads machine arguments (renderOverrides arguments) document) :
    runRender machine arguments = exportReply arguments (sheetOf machine arguments document) := by
  rw [runRender_eq, reads]
  rfl

theorem escape_of_renderBreaks {escape : Escape} (breaks : RenderBreaks machine arguments escape) :
    (runRender machine arguments).escape = some escape := by
  cases breaks with
  | tooDeep deep =>
      rw [runRender_of_isTooDeep deep]
      rfl
  | unmade reads made fails =>
      rw [runRender_of_reads reads, exportReply, made]
      dsimp only
      rw [fails.message?_eq_none]
      rfl
  | unshowable reads written member hidden =>
      rw [runRender_of_reads reads, exportReply, written]
      exact (Reply.isQuiet_of_tree _).escape_foldl_line (List.mem_map_of_mem member) hidden

theorem render_cases (machine : Machine) (arguments : Arguments) :
    (∃ escape, RenderBreaks machine arguments escape) ∨
      RenderEnds machine arguments (runRender machine arguments) := by
  rcases Document.readFile_cases machine.reach machine.tree (inputPath arguments)
      (renderOverrides arguments) with
    ⟨error, fails⟩ | deep | ⟨document, reads⟩
  · refine .inr (.unreadable fails ?_ ?_)
    · rw [runRender_of_error fails]
      exact (Reply.isQuiet_of_tree machine.tree).reports _
    · rw [runRender_of_error fails]
      rfl
  · exact .inl ⟨_, .tooDeep deep⟩
  · have runs := runRender_of_reads reads
    cases made : (sheetOf machine arguments document).result with
    | error error =>
        cases worded : error.message? with
        | none => exact .inl ⟨_, .unmade reads made (Sheet.fails_of_exportTo made worded)⟩
        | some reason =>
            refine .inr (.unmade reads made worded ?_)
            rw [runs, exportReply, made]
            dsimp only
            rw [worded]
            exact (Reply.isQuiet_of_tree _).reports _
    | ok written =>
        by_cases showable : ∀ path ∈ written, IsShowable (wroteLine path)
        · rw [exportReply, made] at runs
          have exported := Sheet.exported_of_exportTo (isRooted_renderTarget arguments) made
          refine .inr (@RenderEnds.written _ _ _ _ written reads ?_ ?_)
          · rw [runs, Reply.tree_foldl_line]
            exact exported
          · rw [runs]
            exact (Reply.isQuiet_of_tree _).tells (List.forall_mem_map.mpr showable)
        · simp only [not_forall] at showable
          obtain ⟨path, member, hidden⟩ := showable
          exact .inl ⟨_, .unshowable reads made member hidden⟩

end Jianpu.CommandLine
