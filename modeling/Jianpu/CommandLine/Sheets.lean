import Jianpu.CommandLine.Machine
import Jianpu.Document.File
import Jianpu.Notation.Melody

set_option autoImplicit false

/-!
The commands that read notation: listing the events of a line, drawing the sheet of a document, and
writing its melody as a MIDI file.
-/
namespace Jianpu.CommandLine

open Notation (Event Melody)

/-- A text with spaces after it up to a width. -/
def padded (width : Nat) (text : String) : String :=
  text ++ String.ofList (List.replicate (width - text.length) ' ')

/-- The line of an event. -/
def eventLine : Event Float → String
  | .bar marker => "  " ++ marker
  | .note note =>
    "  " ++ padded 8 note.source ++ " " ++ padded 4 note.label ++ " " ++ padded 4 (Pitch.name note.pitch)
      ++ " " ++ Number.Binary64.briefText note.duration ++ " beat(s)"

/-- Lists the events of a line of notation. -/
def runParse (machine : Machine) (arguments : Arguments) : Reply :=
  let key := Key.atOrDefault ((arguments.whole? "--key").getD Key.defaultIndex)
  let melody := Melody.ofText (α := Float) key ((arguments.text? "TEXT").getD "")
  let listed := (melody.events.map eventLine).foldl Reply.line
    (machine.silence.line ("Key: " ++ key.name))
  listed.line (toString melody.notes.length ++ " note(s), "
    ++ Number.Binary64.briefText melody.total ++ " beat(s)")

/-- The command that lists events. -/
def parseCommand : Command (Machine → Arguments → Reply) where
  name := "parse"
  parameters := [.argument "TEXT" .text, keyOption]
  run := runParse

/-- The document with the distances that are given. -/
def withSettings (document : Document) (spacing scale : Option Int) : Document :=
  document.setSettings
    { spacing := (spacing.map Number.Amount.whole).getD document.settings.spacing
      scale := (scale.map Number.Amount.whole).getD document.settings.scale }

/-- Where a sheet goes unless it is told: pages beside the document, drawings into its directory. -/
def defaultTarget (format : SheetFormat) (input : Path) : Path :=
  match format with
  | .svg => input.parent
  | .html | .staff => input.withSuffix ".html"

/-- The escape of a failed sheet that has no words. -/
def Escape.ofSheetError : SheetError → Escape
  | .number fault => .number fault
  | .composing failure | .engraving (.tool failure) => .tool failure
  | _ => .requestRefused

/-- Draws the sheet of a document. -/
def runRender (machine : Machine) (arguments : Arguments) : Reply :=
  let input := (arguments.text? "INPUT").getD ""
  let path := Path.ofText input
  let format := (arguments.format? "--format").getD .html
  let target := ((arguments.text? "--output").map Path.ofText).getD (defaultTarget format path)
  let failure (reply : Reply) (reason : String) : Reply :=
    reply.fail ("Could not render '" ++ input ++ "' — " ++ reason)
  let overrides : Document.Overrides :=
    { title := arguments.text? "--title", album := arguments.text? "--album"
      keyIndex := arguments.whole? "--key" }
  match Document.readFile machine.reach machine.tree path overrides with
  | .error .tooDeep => machine.silence.escaping .tooDeep
  | .error (.file error) => failure machine.silence error.message
  | .ok document =>
    let drawn := withSettings document (arguments.whole? "--spacing") (arguments.whole? "--scale")
    let outcome := Sheet.exportTo machine.tools format drawn machine.tree target
    let reply : Reply := { tree := outcome.tree }
    match outcome.result with
    | .ok written => (written.map fun path => "Wrote " ++ path.text).foldl Reply.line reply
    | .error error =>
      match error.message? with
      | some reason => failure reply reason
      | none => reply.escaping (.ofSheetError error)

/-- The command that draws sheets. -/
def renderCommand : Command (Machine → Arguments → Reply) where
  name := "render"
  parameters :=
    [ .argument "INPUT" .file, outputOption, .option "--format" .format, keyOption,
      .option "--title" .text, .option "--album" .text,
      .option "--spacing" (.wholeWithin 10 100), .option "--scale" (.wholeWithin 0 50) ]
  run := runRender

/-- What is told of a MIDI file that could not be written. -/
def midiFailure : String := "Could not write MIDI file — "

/-- Writes a MIDI file to a path as it was typed. Its header is written before the tracks are made, and
stays when they fail. -/
def writeMidi (machine : Machine) (output : String) (file : Midi.File) (count : Nat) : Reply :=
  let octets := (file.octets.toOption).getD Midi.header
  match machine.tree.writeOctets output octets, file.octets with
  | .error error, _ => machine.silence.failOn midiFailure error
  | .ok tree, .error error => { tree : Reply }.escaping (.midi error)
  | .ok tree, .ok _ =>
    { tree : Reply }.line ("Wrote " ++ toString count ++ " note(s) to " ++ output)

/-- Writes the melody of a document as a MIDI file. -/
def runMidi (machine : Machine) (arguments : Arguments) : Reply :=
  let overrides : Document.Overrides :=
    { keyIndex := arguments.whole? "--key", tempo := arguments.whole? "--tempo" }
  let path := Path.ofText ((arguments.text? "INPUT").getD "")
  match Document.readFile machine.reach machine.tree path overrides with
  | .error .tooDeep => machine.silence.escaping .tooDeep
  | .error (.file error) => machine.silence.failOn midiFailure error
  | .ok document =>
    match Timeline.ofDocument document document.tempo with
    | .error fault => machine.silence.escaping (.number fault)
    | .ok tones =>
      match Midi.File.ofTones tones document.tempo.toFloat 80 document.title with
      | .error error => machine.silence.escaping (.midi error)
      | .ok file => writeMidi machine ((arguments.text? "--output").getD "") file tones.length

/-- The command that writes MIDI files. -/
def midiCommand : Command (Machine → Arguments → Reply) where
  name := "midi"
  parameters :=
    [.argument "INPUT" .file, { outputOption with required := true }, keyOption, tempoOption]
  run := runMidi

end Jianpu.CommandLine
