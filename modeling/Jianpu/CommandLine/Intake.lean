import Jianpu.CommandLine.Machine
import Jianpu.Document.File
import Jianpu.Session.Script

set_option autoImplicit false

/-!
The commands that bring melodies in: from score files, and from recordings of a voice or an instrument.
-/
namespace Jianpu.CommandLine

/-- The escape of a score that could not be converted. -/
def Escape.ofImportError : Import.Error → Escape
  | .number fault => .number fault
  | .outOfCatalog _ => .outOfCatalog

/-- Writes an imported melody as a document, and says so. -/
def writeImported (reply : Reply) (score : Path) (text : String) (keyIndex : Int) (output : String) :
    Reply :=
  let document : Document :=
    { title := Document.titleOf score, keyIndex := .whole keyIndex, blocks := [⟨.melody, text⟩] }
  match document.writeFile reply.tree (Path.ofText output) with
  | (.error error, tree) => { reply with tree }.failOn "Could not write output file — " error
  | (.ok (), tree) => { reply with tree }.line ("Wrote " ++ output)

/-- Converts a score file. The key is told beside the melody when that goes to the output. -/
def runImport (machine : Machine) (arguments : Arguments) : Reply :=
  let path := Path.ofText ((arguments.text? "SCORE").getD "")
  let octets := (machine.tree.readOctets path.text).toOption.getD []
  match Score.ofFile (fun _ => machine.decodeScore octets) path with
  | .error (.number fault) => machine.silence.escaping (.number fault)
  | .error error => machine.silence.fail (error.message?.getD "")
  | .ok score =>
    match Import.convert score (arguments.whole? "--force-key") with
    | .error error => machine.silence.escaping (.ofImportError error)
    | .ok .noNotes => machine.silence.fail ("Failed to import score: " ++ Import.noNotesReason)
    | .ok (.melody text index) =>
      let heading := "Key: " ++ (Key.atOrDefault index).name
      match arguments.text? "--output" with
      | none => (machine.silence.note heading).line text
      | some output => writeImported (machine.silence.line heading) path text index output

/-- The command that imports scores. -/
def importCommand : Command (Machine → Arguments → Reply) where
  name := "import"
  parameters := [.argument "SCORE" .file, .option "--force-key" .key, outputOption]
  run := runImport

/-- The number of the last melody block. -/
def lastMelody? (document : Document) : Option Nat :=
  (document.blocks.zipIdx.filter fun (block, _) => decide (block.kind = .melody)).getLast?.map (·.2)

/-- A session that is to record into the last melody block of a document, with the number of the
block. A document without one gets one. -/
def recordingSession (logarithm : Pitch.Logarithm) (document : Document) (keyIndex : Option Int) :
    Session × Nat :=
  let session := Session.ofDocument
    { document with keyIndex := (keyIndex.map Number.Amount.whole).getD document.keyIndex } false
    logarithm
  match lastMelody? session.document with
  | some index => (session, index)
  | none => (session.adopt (session.document.addBlock .melody ""), session.document.blocks.length)

/-- Records a source into the last melody block of a document. -/
def recordInto (logarithm : Pitch.Logarithm) (document : Document) (keyIndex : Option Int)
    (source : Capture.Source (List Operation)) : Session × SessionReply :=
  let (session, index) := recordingSession logarithm document keyIndex
  let (begun, _) := session.startCapture index source false
  begun.runCapture fun _ session => session

/-- Reports the tokens of a recording, and writes the document they were appended to. -/
def writeTranscript (reply : Reply) (document : Document) (tokens : List String) (target : String) :
    Reply :=
  let told := reply.line
    (if tokens.isEmpty then "(no stable notes detected)" else " ".intercalate tokens)
  if target.isEmpty then told
  else
    match document.writeFile told.tree (Path.ofText target) with
    | (.error error, tree) =>
      { told with tree }.failOn ("Could not write '" ++ target ++ "' — ") error
    | (.ok (), tree) =>
      { told with tree }.line
        ("Appended " ++ toString tokens.length ++ " note(s) to " ++ target)

/-- The document that a transcript is appended to: that of the target, or a new one. -/
def transcriptTarget (machine : Machine) (target : String) : Except Document.ReadError Document :=
  let path := Path.ofText target
  if target.isEmpty then .ok {}
  else
    match machine.tree.exists? path.text with
    | .error error => .error (.file error)
    | .ok false => .ok {}
    | .ok true => Document.readFile machine.reach machine.tree path {}

/-- Transcribes a recording. -/
def runTranscribe (machine : Machine) (arguments : Arguments) : Reply :=
  let path := Path.ofText ((arguments.text? "AUDIO").getD "")
  let target := (arguments.text? "--append-to").getD ""
  match transcriptTarget machine target with
  | .error .tooDeep => machine.silence.escaping .tooDeep
  | .error (.file error) => machine.silence.failOn "" error
  | .ok document =>
    let octets := (machine.tree.readOctets path.text).toOption.getD []
    let source := Capture.Source.ofRecording {} path (machine.decodeRecording octets)
    let (session, reply) :=
      recordInto machine.logarithm document (arguments.whole? "--key") source
    match session.captureError, reply with
    | some reason, _ => machine.silence.fail reason
    | none, .ok (.tokens tokens) => writeTranscript machine.silence session.document tokens target
    | none, .error (.capture (.number fault)) => machine.silence.escaping (.number fault)
    | none, _ => machine.silence.escaping .outOfCatalog

/-- The command that transcribes recordings. -/
def transcribeCommand : Command (Machine → Arguments → Reply) where
  name := "transcribe"
  parameters := [.argument "AUDIO" .file, keyOption, .option "--append-to" .text]
  run := runTranscribe

end Jianpu.CommandLine
