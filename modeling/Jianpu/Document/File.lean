import Jianpu.Document.Envelope
import Jianpu.File.Tree
import Jianpu.Text.Case

set_option autoImplicit false

/-!
Documents in files. A file with the suffix `.json` holds the stored form of a document; any other file
is text, and each of its paragraphs is a melody block. The title is taken from the file's name.
-/
namespace Jianpu.Document

open Number (Amount)

/-- Properties given from outside, which prevail over those of a file. -/
structure Overrides where
  title : Option String := none
  album : Option String := none
  keyIndex : Option Int := none
  tempo : Option Int := none

/-- The document with the properties that are given. -/
def overridden (document : Document) (overrides : Overrides) : Document :=
  { document with
    title := overrides.title.getD document.title
    album := overrides.album.getD document.album
    keyIndex := (overrides.keyIndex.map Amount.whole).getD document.keyIndex
    tempo := (overrides.tempo.map Amount.whole).getD document.tempo }

/-- True of a file that holds the stored form. -/
def isStoredForm (path : Path) : Bool :=
  Text.lower path.suffix == ".json"

/-- The title that a file's name stands for: without its suffix, and with spaces for underscores. -/
def titleOf (path : Path) : String :=
  path.stem.map fun c => if c = '_' then ' ' else c

/-- The document of an envelope. Key and tempo are standard where they are not stored. -/
def ofEnvelope (envelope : Envelope) : Document :=
  let standard : Document := {}
  { blocks := envelope.blocks
    settings := envelope.settings
    keyIndex := envelope.keyIndex.getD standard.keyIndex
    tempo := envelope.tempo.getD standard.tempo }

/-- The document of a text; a text without a paragraph has one empty block. -/
def ofText (text : String) : Document :=
  let blocks : List Block :=
    (Text.paragraphs text.toList).map fun paragraph => ⟨.melody, String.ofList paragraph⟩
  { blocks := if blocks.isEmpty then [{}] else blocks }

/-- The document that the text of a file holds; none when it is nested too deeply. -/
def ofFileText? (reach : Envelope.Reach) (path : Path) (text : String) : Option Document :=
  let document :=
    if isStoredForm path then (Envelope.decode? reach text).map ofEnvelope else some (ofText text)
  document.map fun document => { document with title := titleOf path }

/-- Why the document of a file could not be read. -/
inductive ReadError where
  | file (error : FileError)
  | tooDeep

/-- The text of the file of a document. -/
def fileText (document : Document) (path : Path) : String :=
  if isStoredForm path then
    Envelope.encode ⟨document.blocks, document.settings, some document.keyIndex, some document.tempo⟩
  else "\n\n".intercalate (document.blocks.map (·.content)) ++ "\n"

variable {δ : Type}

/-- Reads the document of a file. -/
def readFile [Illegible δ] (reach : Envelope.Reach) (tree : FileTree δ) (path : Path)
    (overrides : Overrides) : Except ReadError Document :=
  match tree.readText path with
  | .error error => .error (.file error)
  | .ok text =>
    match ofFileText? reach path text with
    | none => .error .tooDeep
    | some document => .ok (document.overridden overrides)

/-- Writes a document to a file, and says whether that went well. -/
def writeFile (document : Document) (tree : FileTree δ) (path : Path) :
    Except FileError Unit × FileTree δ :=
  tree.writeText path (document.fileText path)

end Jianpu.Document
