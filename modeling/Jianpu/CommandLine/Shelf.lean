import Jianpu.CommandLine.Machine
import Jianpu.CommandLine.Prompt
import Jianpu.Document.File
import Jianpu.Library

set_option autoImplicit false

/-!
The commands on the melody library: listing, saving, loading and deleting. The library is opened before
the words of the command itself are looked at.
-/
namespace Jianpu.CommandLine

/-- The reply to a failed store: its words, or none. -/
def Reply.ofStoreError (reply : Reply) (error : StoreError) : Reply :=
  match error.message? with
  | some message => reply.fail message
  | none => reply.escaping (.store error)

/-- A number with spaces before it up to a width. -/
def aligned (width : Nat) (n : Int) : String :=
  let digits := toString n
  String.ofList (List.replicate (width - digits.length) ' ') ++ digits

/-- The line of a record; those of the owner are marked. -/
def recordLine (owner : String) (record : Record) : String :=
  let mark := if record.owner = some owner then "*" else " "
  let album := if record.album.isEmpty then "" else " (" ++ record.album ++ ")"
  mark ++ aligned 5 record.id ++ "  " ++ record.title ++ album ++ "  " ++ record.created

/-- What a command on the library does: its reply and the library after it. -/
abbrev ShelfAction := Machine → Library → Arguments → Reply × Library

/-- Lists the most recent melodies. -/
def runList : ShelfAction := fun machine library _ =>
  match library.recent Library.listLimit with
  | (.error error, after) => (machine.silence.ofStoreError error, after)
  | (.ok [], after) => (machine.silence.line "No saved melodies.", after)
  | (.ok records, after) =>
    ((records.map (recordLine library.owner)).foldl Reply.line machine.silence, after)

/-- The reply to a save. -/
def savedReply (reply : Reply) (document : Document) (result : Except (SaveError Unit) (Option Int)) :
    Reply :=
  match result with
  | .ok (some id) => reply.line ("Saved '" ++ document.title ++ "' as #" ++ toString id)
  | .ok none => reply.line "Not saved."
  | .error .missingTitle => reply.fail missingTitleMessage
  | .error (.store error) => reply.ofStoreError error
  | .error (.unanswered ()) => reply.aborted

/-- Saves a document. When a melody of its title and album is there, the input is asked whether it may
be overwritten. -/
def saveAsking (machine : Machine) (library : Library) (document : Document) : Reply × Library :=
  match library.save machine.now (fun _ asked => (.error (), asked)) document with
  | (.error (.unanswered ()), _) =>
    let (shown, answer) := Prompt.ask ("'" ++ document.title ++ "' already exists. Overwrite?")
      (Prompt.linesOf machine.input)
    let (result, after) := library.save machine.now
      (fun _ asked => (answer.elim (.error ()) .ok, asked)) document
    (savedReply { machine.silence with output := shown } document result, after)
  | (result, after) => (savedReply machine.silence document result, after)

/-- Saves the document of a file. -/
def runSave : ShelfAction := fun machine library arguments =>
  let overrides : Document.Overrides :=
    { title := arguments.text? "--title", album := arguments.text? "--album"
      keyIndex := arguments.whole? "--key", tempo := arguments.whole? "--tempo" }
  let path := Path.ofText ((arguments.text? "INPUT").getD "")
  match Document.readFile machine.reach machine.tree path overrides with
  | .error .tooDeep => (machine.silence.escaping .tooDeep, library)
  | .error (.file error) => (machine.silence.failOn "" error, library)
  | .ok document =>
    if arguments.has "--yes" then
      let (result, after) := library.save machine.now (fun _ asked => (.ok true, asked)) document
      (savedReply machine.silence document result, after)
    else saveAsking machine library document

/-- Shows a document. -/
def shown (reply : Reply) (document : Document) : Reply :=
  let album := if document.album.isEmpty then "" else " — " ++ document.album
  let headed := (reply.line (document.title ++ album)).line
    ("Key: " ++ document.key.name ++ "  |  Tempo: " ++ document.tempo.text ++ " BPM")
  (document.blocks.zipIdx.map fun (block, index) =>
    "[" ++ toString (index + 1) ++ "] " ++ block.kind.name ++ ": " ++ block.content).foldl
      Reply.line headed

/-- Shows a document, or writes it to a file that is named. -/
def presented (machine : Machine) (output : Option String) (document : Document) : Reply :=
  match output with
  | none => shown machine.silence document
  | some output =>
    match document.writeFile machine.tree (Path.ofText output) with
    | (.error error, tree) => { tree : Reply }.failOn "Could not write output file — " error
    | (.ok (), tree) => { tree : Reply }.line ("Wrote " ++ output)

/-- Shows a melody, or writes it to a file. -/
def runLoad : ShelfAction := fun machine library arguments =>
  let (loaded, after) := library.load machine.reach ((arguments.whole? "RECORD_ID").getD 0)
  let reply :=
    match loaded with
    | .error (.unknown id) => machine.silence.fail ("No melody with id " ++ toString id ++ ".")
    | .error .tooDeep => machine.silence.escaping .tooDeep
    | .error (.store error) => machine.silence.ofStoreError error
    | .error (.worded found) => presented machine (arguments.text? "--output") found.otherwise
    | .ok document => presented machine (arguments.text? "--output") document
  (reply, after)

/-- Deletes a melody of the owner's. -/
def runDelete : ShelfAction := fun machine library arguments =>
  let id := (arguments.whole? "RECORD_ID").getD 0
  match library.delete id with
  | (.error error, after) => (machine.silence.ofStoreError error, after)
  | (.ok true, after) => (machine.silence.line ("Deleted #" ++ toString id), after)
  | (.ok false, after) =>
    (machine.silence.fail
      ("Melody " ++ toString id ++ " does not exist or belongs to someone else."), after)

/-- The commands on the library. -/
def shelfCommands : List (Command ShelfAction) :=
  [ ⟨"list", [], runList⟩,
    ⟨"save", [.argument "INPUT" .file, .option "--title" .text, .option "--album" .text, keyOption,
      tempoOption, .switch "--yes" "-y"], runSave⟩,
    ⟨"load", [.argument "RECORD_ID" .whole, outputOption], runLoad⟩,
    ⟨"delete", [.argument "RECORD_ID" .whole], runDelete⟩ ]

/-! Opening. -/

/-- The name of the database file in the program's own directory. -/
def databaseName : String := "library.db"

/-- The variable that names a database. -/
def databaseVariable : String := "JIANPUVIZ_DB"

/-- The path of the database: that of the option, else that of the environment, else the one in the
program's own directory. An empty text names none. -/
def databasePath (machine : Machine) (arguments : Arguments) : Path :=
  let named := (arguments.text? "--db").or (machine.environment databaseVariable)
  match named with
  | some text => if text.isEmpty then machine.home.child databaseName else Path.ofText text
  | none => machine.home.child databaseName

/-- The reply to a library that could not be opened. -/
def unopened (tree : FileTree Database) (error : OpeningError) : Reply :=
  let reply : Reply := { tree }
  match error with
  | .file error => reply.failOn "" error
  | .store error => reply.ofStoreError error

/-- Opens the library for its owner. -/
def openLibrary (machine : Machine) (path : Path) : Except OpeningError Library × FileTree Database :=
  match Store.openAt machine.tree path.text with
  | (.error error, tree) => (.error error, tree)
  | (.ok store, tree) =>
    let (owner, tree) := Owner.load tree path.parent machine.freshOwner
    (owner.map fun owner => { store, owner }, tree)

/-- Runs an action on an opened library with the words that are left, and closes the library. -/
def runShelf (machine : Machine) (path : Path) (library : Library) (command : Command ShelfAction)
    (words : List String) : Reply :=
  withArguments machine [command.name] command.parameters words fun arguments =>
    let (reply, after) := command.run machine library arguments
    { reply with tree := after.store.leftIn reply.tree path.text }

end Jianpu.CommandLine
