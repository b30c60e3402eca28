import Jianpu.CommandLine.Intake
import Jianpu.CommandLine.Sheets
import Jianpu.CommandLine.Shelf

set_option autoImplicit false

/-!
The command line of the program: a command by its name, or the library's group of commands.
-/
namespace Jianpu.CommandLine

/-- The version of the program. -/
def versionText : String := "0.3.0"

/-- The options of the program itself. -/
def programOptions : List Parameter :=
  [.version, .switch "--verbose" "-v", .help]

/-- The options of the library's group. -/
def libraryOptions : List Parameter :=
  [.option "--db" .text, .help]

/-- The name of the library's group. -/
def libraryName : String := "library"

/-- The commands outside the library's group. -/
def commands : List (Command (Machine → Arguments → Reply)) :=
  [parseCommand, renderCommand, importCommand, midiCommand, transcribeCommand]

/-- The line of the program's version. -/
def versionLine : String :=
  programName ++ ", version " ++ versionText

/-- The reply to a word that names no command of a group. Where two hyphens have ended the options, the
word may still have the form of one, and the options are sorted again with it. -/
def unknownCommand (machine : Machine) (path : List String) (parameters : List Parameter)
    (known : List String) (name : String) (words : List String) : Reply :=
  match sort parameters true (name :: words) with
  | .error error => machine.silence.misused error
  | .ok sorted =>
    match sorted.instead? with
    | some asked =>
      machine.silence.line (if asked = Parameter.version.label then versionLine else usageLine path)
    | none =>
      machine.silence.misused (.noSuchCommand name (Text.Similarity.proposals name known))

/-- Runs a command of the library's group by its name, on the library that is opened for it. -/
def runLibraryCommand (machine : Machine) (arguments : Arguments) (name : String)
    (words : List String) : Reply :=
  match shelfCommands.find? fun command => command.name == name with
  | none =>
    unknownCommand machine [libraryName] libraryOptions (shelfCommands.map (·.name)) name words
  | some command =>
    let path := databasePath machine arguments
    match openLibrary machine path with
    | (.error error, tree) => unopened tree error
    | (.ok library, tree) => runShelf { machine with tree } path library command words

/-- Runs the library's group with the words after its name. -/
def runLibrary (machine : Machine) (words : List String) : Reply :=
  match sort libraryOptions true words with
  | .error error => machine.silence.misused error
  | .ok sorted =>
    if words.isEmpty || sorted.instead?.isSome then machine.silence.line (usageLine [libraryName])
    else
      match read machine.tree libraryOptions { sorted with words := [] }, sorted.words with
      | .error error, _ => machine.silence.misused error
      | .ok _, [] => machine.silence.misused .missingCommand
      | .ok arguments, name :: rest => runLibraryCommand machine arguments name rest

/-- Runs a command by its name. -/
def runNamed (machine : Machine) (name : String) (words : List String) : Reply :=
  if name = libraryName then runLibrary machine words
  else
    match commands.find? fun command => command.name == name with
    | none =>
      unknownCommand machine [] programOptions (libraryName :: commands.map (·.name)) name words
    | some command => withArguments machine [command.name] command.parameters words (command.run machine)

/-- Runs the program with the words of its command line. -/
def run (machine : Machine) (words : List String) : Reply :=
  match sort programOptions true words with
  | .error error => machine.silence.misused error
  | .ok sorted =>
    match sorted.instead?, sorted.words with
    | some asked, _ =>
      machine.silence.line
        (if asked = Parameter.version.label then versionLine else usageLine [])
    | none, [] =>
      if words.isEmpty then machine.silence.line (usageLine [])
      else machine.silence.misused .missingCommand
    | none, name :: rest => runNamed machine name rest

end Jianpu.CommandLine
