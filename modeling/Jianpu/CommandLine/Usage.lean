import Jianpu.File.Tree
import Jianpu.Key.Reference
import Jianpu.Library.Store
import Jianpu.Sheet.Export
import Jianpu.Text.Similarity

set_option autoImplicit false

/-!
The words of a command line. A command has parameters: arguments, which are told by their place, and
options, which are told by their spelling and may stand anywhere among the arguments. The words are
sorted out first; then the values are read in the order the options were given in, the arguments after
them, and it is the first fault in this order that is reported.
-/
namespace Jianpu.CommandLine

/-- How the word of a parameter is read. -/
inductive ValueKind where
  | text
  /-- A reference to a key. -/
  | key
  /-- The path of a file that is there. -/
  | file
  /-- The name of a sheet format. -/
  | format
  | whole
  | wholeWithin (least most : Int)

/-- A value of a parameter. -/
inductive Value where
  | text (text : String)
  | whole (n : Int)
  | format (format : SheetFormat)

/-- A parameter of a command. An argument has no spelling; a switch takes no word. -/
structure Parameter where
  /-- The name it is looked up by, and shown by in messages. -/
  label : String
  spellings : List String := []
  kind : ValueKind := .text
  isSwitch : Bool := false
  required : Bool := false

namespace Parameter

/-- An argument, which has to be given. -/
def argument (label : String) (kind : ValueKind) : Parameter :=
  { label, kind, required := true }

/-- An option that takes a word. -/
def option (label : String) (kind : ValueKind) : Parameter :=
  { label, spellings := [label], kind }

/-- A switch with a long and a short spelling. -/
def switch (label short : String) : Parameter :=
  { label, spellings := [label, short], isSwitch := true }

/-- How a message shows the parameter. -/
def hint (parameter : Parameter) : String :=
  if parameter.spellings.isEmpty then Text.quoted parameter.label
  else " / ".intercalate (parameter.spellings.map Text.quoted)

/-- The switch that asks for help, which every command has. -/
def help : Parameter :=
  .switch "--help" "-h"

/-- The switch that asks for the version. -/
def version : Parameter :=
  { label := "--version", spellings := ["--version"], isSwitch := true }

end Parameter

/-- Why the words of a command line cannot be used. A name that is not known comes with those that may
have been meant. -/
inductive UsageError where
  | noSuchOption (spelling : String) (proposals : List String)
  | needsValue (spelling : String)
  | takesNoValue (spelling : String)
  | missing (parameter : Parameter)
  | invalid (parameter : Parameter) (reason : String)
  | unexpected (words : List String)
  | missingCommand
  | noSuchCommand (name : String) (proposals : List String)
  /-- The path of a file is none that could be looked up. -/
  | unusable (error : FileError)

/-- The wording of a proposal, after a space. -/
def proposed : List String → String
  | [] => ""
  | [name] => " Did you mean " ++ Text.quoted name ++ "?"
  | names => " (Did you mean one of: " ++ ", ".intercalate (names.map Text.quoted) ++ "?)"

/-- The wording of a usage error. -/
def UsageError.message : UsageError → String
  | .noSuchOption spelling proposals =>
    "No such option " ++ Text.quoted spelling ++ "." ++ proposed proposals
  | .needsValue spelling => "Option " ++ Text.quoted spelling ++ " requires an argument."
  | .takesNoValue spelling => "Option " ++ Text.quoted spelling ++ " does not take a value."
  | .missing parameter =>
    "Missing " ++ (if parameter.spellings.isEmpty then "argument " else "option ")
      ++ parameter.hint ++ "."
  | .invalid parameter reason => "Invalid value for " ++ parameter.hint ++ ": " ++ reason
  | .unexpected words =>
    "Got unexpected extra " ++ (if words.length = 1 then "argument" else "arguments") ++ " ("
      ++ " ".intercalate words ++ ")"
  | .missingCommand => "Missing command."
  | .noSuchCommand name proposals =>
    "No such command " ++ Text.quoted name ++ "." ++ proposed proposals
  | .unusable error => error.message

/-! Sorting the words. -/

/-- The words of a command line as options with their words, and the other words. -/
structure Sorted where
  options : List (Parameter × String) := []
  words : List String := []

/-- The switch that takes the place of the command: the first one given of help and version. -/
def Sorted.instead? (sorted : Sorted) : Option String :=
  (sorted.options.map (·.1.label)).find? [Parameter.help.label, Parameter.version.label].contains

/-- What a word says by itself: options with their words, and one whose word is the next one. -/
structure Hits where
  options : List (Parameter × String) := []
  awaiting : Option (Parameter × String) := none

/-- The option with a spelling. -/
def spelled? (parameters : List Parameter) (spelling : String) : Option Parameter :=
  parameters.find? fun parameter => parameter.spellings.contains spelling

/-- Reads a run of short options; what follows one that takes a word is its word. -/
def shortHits (parameters : List Parameter) : List Text.CodePoint → Except UsageError Hits
  | [] => .ok {}
  | letter :: rest =>
    let spelling := Text.ofCodePoints [.char '-', letter]
    match spelled? parameters spelling with
    | none => .error (.noSuchOption spelling [])
    | some parameter =>
      if parameter.isSwitch then do
        let hits ← shortHits parameters rest
        return { hits with options := (parameter, "") :: hits.options }
      else if rest.isEmpty then .ok { awaiting := some (parameter, spelling) }
      else .ok { options := [(parameter, Text.ofCodePoints rest)] }

/-- The spellings with two hyphens. -/
def longSpellings (parameters : List Parameter) : List String :=
  (parameters.flatMap (·.spellings)).filter fun spelling => spelling.toList.take 2 == ['-', '-']

/-- Reads a word that starts with two hyphens: an option by its whole spelling, perhaps with its word
after an equals sign. -/
def longHits (parameters : List Parameter) (word : List Char) : Except UsageError Hits :=
  let spelling := String.ofList (word.takeWhile (· != '='))
  let given : Option String :=
    match word.dropWhile (· != '=') with
    | [] => none
    | _ :: value => some (String.ofList value)
  match spelled? parameters spelling, given with
  | none, _ =>
    .error (.noSuchOption spelling (Text.Similarity.proposals spelling (longSpellings parameters)))
  | some parameter, none =>
    if parameter.isSwitch then .ok { options := [(parameter, "")] }
    else .ok { awaiting := some (parameter, spelling) }
  | some parameter, some value =>
    if parameter.isSwitch then .error (.takesNoValue spelling)
    else .ok { options := [(parameter, value)] }

/-- Reads a word that starts with a hyphen. -/
def hitsOf (parameters : List Parameter) : List Char → Except UsageError Hits
  | '-' :: '-' :: rest => longHits parameters ('-' :: '-' :: rest)
  | word => shortHits parameters (Text.CodePoint.ofSpelling (word.drop 1))

/-- True of a word that is meant as an option: a hyphen and more. -/
def isOption (word : String) : Bool :=
  match word.toList with
  | '-' :: _ :: _ => true
  | _ => false

/-- Sorts words. Two hyphens end the options; where commands may follow, so does the first word that
is none. -/
def sort (parameters : List Parameter) (endsAtWord : Bool) : List String → Except UsageError Sorted
  | [] => .ok {}
  | "--" :: rest => .ok { words := rest }
  | word :: rest =>
    if isOption word then
      match hitsOf parameters word.toList, rest with
      | .error error, _ => .error error
      | .ok ⟨options, none⟩, rest => do
        let sorted ← sort parameters endsAtWord rest
        return { sorted with options := options ++ sorted.options }
      | .ok ⟨_, some (_, spelling)⟩, [] => .error (.needsValue spelling)
      | .ok ⟨options, some (parameter, _)⟩, value :: rest => do
        let sorted ← sort parameters endsAtWord rest
        return { sorted with options := options ++ (parameter, value) :: sorted.options }
    else if endsAtWord then .ok { words := word :: rest }
    else do
      let sorted ← sort parameters endsAtWord rest
      return { sorted with words := word :: sorted.words }

/-! Reading the values. -/

/-- Why a word is no value of a parameter. -/
inductive WordFault where
  | invalid (reason : String)
  /-- The word is no path that could be looked up. -/
  | unusable (error : FileError)

/-- Reads a whole number. -/
def readWhole (word kindName : String) : Except WordFault Int :=
  match Text.readInt word.toList with
  | .ok n => .ok n
  | .error _ => .error (.invalid (Text.quoted word ++ " is not a valid " ++ kindName ++ "."))

/-- The name of a file as a message shows it. -/
def shownName (name : String) : String :=
  Text.quoted (FileName.shown name)

/-- Reads the path of a file that is there. -/
def readFilePath (tree : FileTree Database) (word : String) : Except WordFault String :=
  match tree.status word with
  | .ok .directory => .error (.invalid ("File " ++ shownName word ++ " is a directory."))
  | .ok _ => .ok word
  | .error fault =>
    if fault.isSystem then .error (.invalid ("File " ++ shownName word ++ " does not exist."))
    else .error (.unusable ⟨fault, word⟩)

/-- Reads the name of a sheet format, whatever its case. -/
def readFormat (word : String) : Except WordFault SheetFormat :=
  match SheetFormat.all.find? fun format => format.name == Text.fold word with
  | some format => .ok format
  | none =>
    .error (.invalid (Text.quoted word ++ " is not one of "
      ++ ", ".intercalate (SheetFormat.all.map fun format => Text.quoted format.name) ++ "."))

/-- Reads the word of a parameter. -/
def ValueKind.read (tree : FileTree Database) (kind : ValueKind) (word : String) :
    Except WordFault Value :=
  match kind with
  | .text => .ok (.text word)
  | .key => ((Key.find word).map Value.whole).mapError fun error => .invalid error.message
  | .file => (readFilePath tree word).map .text
  | .format => (readFormat word).map .format
  | .whole => (readWhole word "integer").map .whole
  | .wholeWithin least most => do
    let n ← readWhole word "integer range"
    if least ≤ n ∧ n ≤ most then return .whole n
    else
      throw (.invalid
        (toString n ++ " is not in the range " ++ toString least ++ "<=x<=" ++ toString most ++ "."))

/-- The values of a command's parameters by label. -/
abbrev Arguments := List (String × Value)

/-- Reads the word of a parameter as one of a command's values. -/
def valueOf (tree : FileTree Database) (parameter : Parameter) (word : String) :
    Except UsageError (String × Value) :=
  match parameter.kind.read tree word with
  | .ok value => .ok (parameter.label, value)
  | .error (.invalid reason) => .error (.invalid parameter reason)
  | .error (.unusable error) => .error (.unusable error)

/-- The words of options in the order the options were first given in, each with its last word. -/
def lastWords : (seen : List String) → List (Parameter × String) → List (Parameter × String)
  | _, [] => []
  | seen, (parameter, word) :: rest =>
    if seen.contains parameter.label then lastWords seen rest
    else
      let last := (rest.reverse.find? fun other => other.1.label == parameter.label).map (·.2)
      (parameter, last.getD word) :: lastWords (parameter.label :: seen) rest

/-- Pairs arguments with words; the fault is the first argument without one. -/
def pairArguments (tree : FileTree Database) :
    List Parameter → List String → Except UsageError (Arguments × List String)
  | [], words => .ok ([], words)
  | parameter :: _, [] => .error (.missing parameter)
  | parameter :: parameters, word :: words => do
    let value ← valueOf tree parameter word
    let (values, rest) ← pairArguments tree parameters words
    return (value :: values, rest)

/-- The values of the parameters of a command. -/
def read (tree : FileTree Database) (parameters : List Parameter) (sorted : Sorted) :
    Except UsageError Arguments := do
  let options := lastWords [] sorted.options
  let given ← options.mapM fun (parameter, word) => valueOf tree parameter word
  let (arguments, extra) ← pairArguments tree (parameters.filter (·.spellings.isEmpty)) sorted.words
  let absent := parameters.find? fun parameter =>
    parameter.required && !parameter.spellings.isEmpty
      && options.all fun option => option.1.label != parameter.label
  match absent, extra with
  | some parameter, _ => .error (.missing parameter)
  | none, [] => return given ++ arguments
  | none, extra => .error (.unexpected extra)

namespace Arguments

/-- The value of a parameter, if it was given. -/
def find? (arguments : Arguments) (label : String) : Option Value :=
  (List.find? (fun entry => entry.1 == label) arguments).map (·.2)

/-- The text of a parameter. -/
def text? (arguments : Arguments) (label : String) : Option String :=
  match arguments.find? label with
  | some (.text text) => some text
  | _ => none

/-- The number of a parameter. -/
def whole? (arguments : Arguments) (label : String) : Option Int :=
  match arguments.find? label with
  | some (.whole n) => some n
  | _ => none

/-- The format of a parameter. -/
def format? (arguments : Arguments) (label : String) : Option SheetFormat :=
  match arguments.find? label with
  | some (.format format) => some format
  | _ => none

/-- True when a switch was given. -/
def has (arguments : Arguments) (label : String) : Bool :=
  (arguments.find? label).isSome

end Arguments

end Jianpu.CommandLine
