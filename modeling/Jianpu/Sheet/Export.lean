import Jianpu.Drawing.Layout
import Jianpu.Drawing.Svg
import Jianpu.File.Tree
import Jianpu.Sheet.Engraver
import Jianpu.Sheet.Filename
import Jianpu.Sheet.Page
import Jianpu.Sheet.Staff
import Jianpu.Text.Case

set_option autoImplicit false

/-!
Sheets of a document in three formats: one SVG file per section, an HTML page with all sections, and
an HTML page with the melody in staff notation. The engraving of staff notation belongs to tools
outside the library, which are passed in; what they were asked is part of the result.
-/
namespace Jianpu

open Number (Amount Fault)

/-- A format of sheets. -/
inductive SheetFormat where
  | svg
  | html
  | staff
  deriving Repr, DecidableEq

namespace SheetFormat

/-- The name of a format. -/
def name : SheetFormat → String
  | .svg => "svg"
  | .html => "html"
  | .staff => "staff-html"

/-- The formats in the order of their names. -/
def all : List SheetFormat := [.html, .staff, .svg]

/-- The format with a name; case and the blanks around do not matter. -/
def ofText? (text : String) : Option SheetFormat :=
  let wanted := Text.lower (Text.trim text)
  all.find? fun format => format.name == wanted

/-- The wording for a text that names no format. -/
def unsupportedMessage (text : String) : String :=
  "Unsupported output format '" ++ text ++ "'. Use one of: "
    ++ ", ".intercalate (all.map name) ++ "."

/-- The suffix of the files of a format. -/
def extension : SheetFormat → String
  | .svg => ".svg"
  | .html | .staff => ".html"

end SheetFormat

/-- Why a sheet was not made. -/
inductive SheetError where
  /-- The SVG format has no single text. -/
  | needsDirectory
  /-- A page of drawings without drawings. -/
  | noDrawings
  /-- A page of staff notation without a score. -/
  | noScore
  /-- A number of the drawing has no text. -/
  | number (fault : Fault)
  /-- The score could not be composed. -/
  | composing (failure : ToolFailure)
  | engraving (error : EngravingError)
  | file (error : FileError)

/-- The wording of a failed sheet. A refused request, a number without a text and a failure of a tool
that is not reported have none of their own. -/
def SheetError.message? : SheetError → Option String
  | .needsDirectory => some "The svg format writes one file per section; use export()."
  | .noDrawings => some "drawings are required for Jianpu HTML rendering."
  | .noScore => some "musicxml_bytes is required for staff rendering."
  | .number .undefined => some "cannot convert float NaN to integer"
  | .number _ => none
  | .composing failure => failure.message?
  | .engraving error => error.message?
  | .file error => some error.message

/-- The tools that staff notation is engraved with. -/
structure StaffTools where
  /-- A score as MusicXML. -/
  compose : StaffScore Float → Except ToolFailure (List UInt8)
  engraver : Engraver

/-- No tools: whatever is asked of them fails. -/
def StaffTools.absent : StaffTools :=
  let failure : ToolFailure := ⟨"There are no tools for staff notation.", true⟩
  { compose := fun _ => .error failure
    engraver := ⟨.error failure, fun _ => .error failure, .error failure, fun _ => .error failure⟩ }

/-- What the tools were given while a sheet was made. -/
structure EngravingTrace where
  score : StaffScore Float
  calls : List EngraverCall

namespace Sheet

/-- The page of drawings under a title and a subtitle. -/
def drawingPage (title : String) (drawings? : Option (List (Drawing Amount))) (subtitle : String) :
    Except SheetError String := do
  let drawings ← drawings?.elim (.error .noDrawings) .ok
  let svgs ← (drawings.mapM Svg.render).mapError .number
  return Page.render title svgs subtitle

/-- The page of a score in staff notation under a title, and what the engraver was asked. -/
def staffPage (engraver : Engraver) (title : String) (score? : Option (List UInt8)) :
    Except SheetError String × List EngraverCall :=
  match score? with
  | none => (.error .noScore, [])
  | some score =>
    let (result, calls) := engraver.page title score
    (result.mapError .engraving, calls)

/-- The page of all drawings of a document. -/
def documentPage (document : Document) : Except SheetError String := do
  let drawings ← (Layout.drawings? document).elim (.error (.number .tooLarge)) .ok
  drawingPage document.title (some drawings) document.album

/-- The text of a sheet that is a single page, and what the tools were asked. -/
def render (tools : StaffTools) (format : SheetFormat) (document : Document) :
    Except SheetError String × Option EngravingTrace :=
  match format with
  | .svg => (.error .needsDirectory, none)
  | .html => (documentPage document, none)
  | .staff =>
    let score := document.staffScore
    match tools.compose score with
    | .error failure => (.error (.composing failure), some ⟨score, []⟩)
    | .ok octets =>
      let (result, calls) := staffPage tools.engraver document.title (some octets)
      (result, some ⟨score, calls⟩)

variable {δ : Type}

/-- Writes the drawings of a document's sections, from the given index on, as files of a directory. -/
def writeSections (document : Document) (directory : Path) (tree : FileTree δ) :
    (index : Nat) → List (Drawing Amount) → Except SheetError (List Path) × FileTree δ
  | _, [] => (.ok [], tree)
  | index, drawing :: rest =>
    match Svg.render drawing with
    | .error fault => (.error (.number fault), tree)
    | .ok text =>
      let path := directory.child (Filename.ofSection document.title document.album index)
      match tree.writeText path text with
      | (.error error, written) => (.error (.file error), written)
      | (.ok (), written) =>
        let (result, final) := writeSections document directory written (index + 1) rest
        (result.map (path :: ·), final)

/-- The outcome of an export: the paths written, the files as they are after it, and what the tools
were asked. A failed export keeps the files written before the failure. -/
structure Outcome (δ : Type) where
  result : Except SheetError (List Path)
  tree : FileTree δ
  trace : Option EngravingTrace

/-- Writes the sheet of a document. The target of the SVG format is a directory, which is made if it is
missing; the target of a page is a file. -/
def exportTo (tools : StaffTools) (format : SheetFormat) (document : Document) (tree : FileTree δ)
    (target : Path) : Outcome δ :=
  match format with
  | .svg =>
    match tree.makeDirectories target with
    | (.error error, made) => ⟨.error (.file error), made, none⟩
    | (.ok (), made) =>
      match Layout.drawings? document with
      | none => ⟨.error (.number .tooLarge), made, none⟩
      | some drawings =>
        let (result, written) := writeSections document target made 0 drawings
        ⟨result, written, none⟩
  | .html | .staff =>
    let (result, trace) := render tools format document
    match result with
    | .error error => ⟨.error error, tree, trace⟩
    | .ok text =>
      let (outcome, written) := tree.writeText target text
      ⟨(outcome.map fun () => [target]).mapError .file, written, trace⟩

end Sheet

end Jianpu
