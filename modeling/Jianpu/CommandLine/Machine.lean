import Jianpu.Capture.Detector
import Jianpu.CommandLine.Usage
import Jianpu.Library.Opening
import Jianpu.Midi.File
import Jianpu.Pitch.Frequency
import Jianpu.Score.Exchange
import Jianpu.Text.ControlSequence
import Jianpu.Text.Lines

set_option autoImplicit false

/-!
What a command finds around it, and what it leaves behind. A command ends well, with a reported error,
or on a fault that it has no words for.
-/
namespace Jianpu.CommandLine

open Number (Fault)

/-- The surroundings of a command. -/
structure Machine where
  tree : FileTree Database
  /-- The value of an environment variable. -/
  environment : String → Option String
  /-- The standard input. -/
  input : String
  /-- The name of an owner that has none yet. -/
  freshOwner : String
  /-- The time. -/
  now : String
  /-- The decoder of score files. -/
  decodeScore : List UInt8 → Except String ScoreStream.Decoded
  /-- The decoder of recordings and estimator of their pitches. -/
  decodeRecording : List UInt8 → Except String Capture.Estimate
  tools : StaffTools
  /-- How deep documents are read. -/
  reach : Envelope.Reach := .usual
  /-- What the frequencies of recordings are rounded to notes with. -/
  logarithm : Pitch.Logarithm := Pitch.binaryLogarithm

/-- The name of the program. -/
def programName : String := "jianpuviz"

/-- The variable that names the directory of the programs' own directories. -/
def configVariable : String := "XDG_CONFIG_HOME"

/-- Where the program keeps its files. -/
def Machine.home (machine : Machine) : Path :=
  (Path.ofText ((machine.environment configVariable).getD "")).child programName

/-- A fault that ends a command without words. -/
inductive Escape where
  | file (error : FileError)
  /-- A stored document is nested too deeply to be read. -/
  | tooDeep
  /-- A line of output has no octets. -/
  | unshowable
  | number (fault : Fault)
  | midi (error : Midi.Error)
  | store (error : StoreError)
  | requestRefused
  /-- A tool failed in a way that is not reported. -/
  | tool (failure : ToolFailure)
  | outOfCatalog

/-- What a command leaves behind. -/
structure Reply where
  output : String := ""
  errors : String := ""
  status : Nat := 0
  /-- Whether the input ended while an answer was awaited. -/
  brokenOff : Bool := false
  escape : Option Escape := none
  tree : FileTree Database

namespace Reply

/-- A fault without words, which ends the command. -/
def escaping (reply : Reply) (escape : Escape) : Reply :=
  { reply with status := 1, escape := some escape }

/-- A line of output, without control sequences. A line that has no octets ends the command, and after
its end nothing is said. -/
def line (reply : Reply) (text : String) : Reply :=
  let shown := Text.ControlSequence.drop text
  if reply.escape.isSome then reply
  else if (Text.Utf8.encodingFault? shown).isSome then reply.escaping .unshowable
  else { reply with output := reply.output ++ shown ++ "\n" }

/-- A line on the error output, without control sequences and in portable form. -/
def note (reply : Reply) (text : String) : Reply :=
  { reply with errors := reply.errors ++ Text.portable (Text.ControlSequence.drop text) ++ "\n" }

/-- A reported error, which ends the command. -/
def fail (reply : Reply) (message : String) : Reply :=
  { reply.note ("  ERROR: " ++ message) with status := 1 }

/-- A file error, which ends the command: one of the operating system is reported after the words that
lead to it, another one has no words. -/
def failOn (reply : Reply) (lead : String) (error : FileError) : Reply :=
  if error.fault.isSystem then reply.fail (lead ++ error.message) else reply.escaping (.file error)

/-- Words that cannot be used, which end the command. -/
def misused (reply : Reply) (error : UsageError) : Reply :=
  match error with
  | .unusable error => reply.escaping (.file error)
  | error => { reply.note ("Error: " ++ error.message) with status := 2 }

/-- The reply as a record of both outputs has it, where a line ends with a line feed alone. -/
def recorded (reply : Reply) : Reply :=
  let joined (text : String) : String := String.ofList (Text.joinLineEnds text.toList)
  { reply with output := joined reply.output, errors := joined reply.errors }

/-- The command was broken off. -/
def aborted (reply : Reply) : Reply :=
  { reply.note "Aborted!" with status := 1, brokenOff := true }

end Reply

/-- Nothing said or done yet. -/
def Machine.silence (machine : Machine) : Reply :=
  { tree := machine.tree }

/-- The line that shows how a command is used. -/
def usageLine (names : List String) : String :=
  "Usage: " ++ " ".intercalate (programName :: names) ++ " [OPTIONS] ..."

/-- Reads the words of a command and does what it does, unless help is asked for. -/
def withArguments (machine : Machine) (names : List String) (parameters : List Parameter)
    (words : List String) (run : Arguments → Reply) : Reply :=
  match sort (parameters ++ [.help]) false words with
  | .error error => machine.silence.misused error
  | .ok sorted =>
    if sorted.instead?.isSome then machine.silence.line (usageLine names)
    else
      match read machine.tree parameters sorted with
      | .error error => machine.silence.misused error
      | .ok arguments => run arguments

/-- The option of the key. -/
def keyOption : Parameter :=
  .option "--key" .key

/-- The option of the tempo, in beats per minute. -/
def tempoOption : Parameter :=
  .option "--tempo" (.wholeWithin 60 140)

/-- The option of the file to write. -/
def outputOption : Parameter :=
  { label := "--output", spellings := ["--output", "-o"] }

/-- A command: its name, its parameters, and what it does. -/
structure Command (ρ : Type) where
  name : String
  parameters : List Parameter
  run : ρ

end Jianpu.CommandLine
