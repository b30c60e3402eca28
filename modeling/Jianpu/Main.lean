import Jianpu.Capture.Exchange
import Jianpu.CommandLine
import Jianpu.Library.Archive
import Jianpu.Library.Timestamp
import Jianpu.Score.Exchange
import Std.Time.DateTime.Timestamp

set_option autoImplicit false

/-!
The program. The files that its words may name are read, the command is run on them, and what it has
changed is written back. Decoders of scores and recordings are asked for their exchange forms; there is
no engraver of staff notation.
-/
namespace Jianpu.Program

open CommandLine (Machine Reply)

/-- The paths that a word may name: the word, what follows an equals sign, and what follows a short
option. -/
def namedBy (word : String) : List String :=
  let cs := word.toList
  [word, String.ofList ((cs.dropWhile (· != '=')).drop 1), String.ofList (cs.drop 2)].filter
    fun text => !text.isEmpty

/-- The paths looked at for a path: those above it, itself, and the owner's file beside it. -/
def around (path : Path) : List Path :=
  path.ancestry ++ [path.parent.child Owner.fileName]

/-- The entry that a file stands for. -/
def entryOf (octets : List UInt8) : FileEntry Database :=
  match Database.ofArchive? octets with
  | some database => .database database
  | none => .file octets

/-- Reads the entries that stand at paths. -/
def snapshot (paths : List Path) : IO (FileTree Database) := do
  let here ← IO.currentDir
  let mut tree : FileTree Database := ⟨[]⟩
  for path in paths do
    let place := here / Text.plain path.text
    if ← place.isDir then tree := tree.put path .directory
    else if ← place.pathExists then
      let octets ← IO.FS.readBinFile place
      tree := tree.put path (entryOf octets.toList)
  return tree

/-- Writes an entry to its place. A database of another layout is left as it stands. -/
def writeEntry (path : Path) (entry : FileEntry Database) : IO Unit := do
  let place := (← IO.currentDir) / Text.plain path.text
  match entry with
  | .directory => IO.FS.createDirAll place
  | .file octets => IO.FS.writeBinFile place ⟨octets.toArray⟩
  | .database (.melodies table) => IO.FS.writeFile place (Text.plain (Database.archiveText table))
  | .database _ => pure ()

/-- Writes what a command has changed: directories first, then the files in them, and every database. -/
def writeBack (before after : FileTree Database) : IO Unit := do
  for (path, entry) in after.entries do
    if after.isDirectory path && !before.isDirectory path then writeEntry path entry
  for (path, octets) in after.changedSince before do
    writeEntry path (.file octets)
  for (path, entry) in after.entries do
    if after.isFile path && (after.octetsAt? path).isNone then writeEntry path entry

/-- The time. -/
def currentTime : IO String := do
  return Timestamp.text (← Std.Time.Timestamp.now).toMillisecondsSinceUnixEpoch.val.toNat

/-- A new name of an owner. -/
def freshOwner : IO String := do
  let mut name := "user_"
  for _ in List.range 9 do
    let n ← IO.rand 0 35
    name := name.push (if n < 10 then Char.ofNat (48 + n) else Char.ofNat (87 + n))
  return name

/-- Runs a command, and asks for further lines of input as long as it awaits an answer. -/
partial def converse (machine : Machine) (words : List String) (said : Nat) : IO Reply := do
  let reply := CommandLine.run machine words
  (← IO.getStdout).putStr (Text.plain (String.ofList (reply.output.toList.drop said)))
  (← IO.getStdout).flush
  if reply.brokenOff then
    let line := Text.ofPlain (← (← IO.getStdin).getLine)
    if !line.isEmpty then
      return ← converse { machine with input := machine.input ++ line } words
        (reply.output.length + line.length)
  return reply

/-- The surroundings of the program. -/
def surroundings (words : List String) : IO Machine := do
  let setting (name : String) : IO (Option String) := do
    return (← IO.getEnv name).map Text.ofPlain
  let config := (← setting CommandLine.configVariable).getD
    ((← setting "HOME").getD "" ++ "/.config")
  let directory := (Path.ofText config).child CommandLine.programName
  let named ← setting CommandLine.databaseVariable
  let paths := (words.flatMap namedBy ++ named.toList).map Path.ofText
  return {
    tree := ← snapshot ((paths ++ [directory.child CommandLine.databaseName]).flatMap around)
    environment := fun name =>
      if name = CommandLine.databaseVariable then named
      else if name = CommandLine.configVariable then some config
      else none
    input := ""
    freshOwner := ← freshOwner
    now := ← currentTime
    decodeScore := ScoreStream.ofOctets
    decodeRecording := Capture.Estimate.ofOctets
    tools := .absent }

end Jianpu.Program

/-- Runs the program. -/
def main (words : List String) : IO UInt32 := do
  let words := words.map Jianpu.Text.ofPlain
  let machine ← Jianpu.Program.surroundings words
  let reply ← Jianpu.Program.converse machine words 0
  (← IO.getStderr).putStr (Jianpu.Text.plain reply.errors)
  Jianpu.Program.writeBack machine.tree reply.tree
  return reply.status.toUInt32
