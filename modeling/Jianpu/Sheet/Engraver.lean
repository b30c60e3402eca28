import Jianpu.Sheet.Page
import Jianpu.Text.Utf8

set_option autoImplicit false

/-!
Engraving of staff notation. The engraver is a tool of its own: it takes page options, loads a
MusicXML text, and draws one page per request. Tools differ in the forms of request that they accept,
so a page is asked for in up to three forms, from the one that says most to the barest.
-/
namespace Jianpu

/-- A request for a page. -/
inductive PageRequest where
  /-- The page number and the wish for no XML declaration, both by name. -/
  | byName (page : Nat)
  /-- Both by position. -/
  | byPosition (page : Nat)
  /-- The page number alone. -/
  | bare (page : Nat)
  deriving Repr, DecidableEq

/-- The page that a request asks for. -/
def PageRequest.page : PageRequest → Nat
  | .byName page | .byPosition page | .bare page => page

/-- A failure of a tool, with its words. -/
structure ToolFailure where
  message : String
  /-- Whether it is of a kind that is reported: about a value that cannot be used, or from the operating
  system. -/
  isReported : Bool

/-- The wording of a failure that is reported. -/
def ToolFailure.message? (failure : ToolFailure) : Option String :=
  if failure.isReported then some failure.message else none

/-- An engraving tool. Each step may fail. -/
structure Engraver where
  /-- Makes it ready and sets the page options. -/
  start : Except ToolFailure Unit
  /-- Whether it can load a text. -/
  loads : String → Except ToolFailure Bool
  /-- The number of pages of the loaded text. -/
  pageCount : Except ToolFailure Nat
  /-- The drawing of a page, if the form of the request is accepted. -/
  draw? : PageRequest → Except ToolFailure (Option String)

/-- What is asked of an engraver, in order. -/
inductive EngraverCall where
  /-- The engraver is made ready, with the page options. -/
  | setOptions
  /-- A text is loaded. -/
  | load (text : String)
  /-- A page is requested. -/
  | request (r : PageRequest)

/-- Why a score was not engraved. -/
inductive EngravingError where
  /-- The score is not valid UTF-8. -/
  | undecodable (fault : Text.Utf8.Fault)
  /-- The engraver cannot load the score. -/
  | notLoaded
  /-- The engraver accepts no form of request. -/
  | requestRefused
  /-- The engraver failed. -/
  | tool (failure : ToolFailure)

/-- The wording of a failed engraving. There is none when every form of request was refused, nor for a
failure of the engraver that is not reported. -/
def EngravingError.message? : EngravingError → Option String
  | .undecodable fault => some fault.message
  | .notLoaded => some "verovio could not load the MusicXML data."
  | .requestRefused => none
  | .tool failure => failure.message?

/-- The page options: extent, scale and margins in the engraver's units, and pages that are cut to the
height of the music. -/
def Engraver.pageOptions : List (String × Int) :=
  [ ("pageHeight", 2970), ("pageWidth", 2100), ("scale", 40), ("pageMarginTop", 100),
    ("pageMarginBottom", 100), ("pageMarginLeft", 100), ("pageMarginRight", 100) ]

namespace Engraver

/-- Asks for a page in the given forms until one is accepted. -/
def drawPage (engraver : Engraver) :
    List PageRequest → Except EngravingError String × List EngraverCall
  | [] => (.error .requestRefused, [])
  | request :: others =>
    match engraver.draw? request with
    | .error failure => (.error (.tool failure), [.request request])
    | .ok (some svg) => (.ok svg, [.request request])
    | .ok none =>
      let (result, calls) := drawPage engraver others
      (result, .request request :: calls)

/-- Draws pages in order and stops at the first that is not drawn. -/
def drawPages (engraver : Engraver) :
    List Nat → Except EngravingError (List String) × List EngraverCall
  | [] => (.ok [], [])
  | page :: others =>
    match engraver.drawPage [.byName page, .byPosition page, .bare page] with
    | (.error error, calls) => (.error error, calls)
    | (.ok svg, calls) =>
      let (result, more) := drawPages engraver others
      (result.map (svg :: ·), calls ++ more)

/-- The pages of the loaded text. -/
def pages (engraver : Engraver) : Except EngravingError (List String) × List EngraverCall :=
  match engraver.pageCount with
  | .error failure => (.error (.tool failure), [])
  | .ok count => engraver.drawPages ((List.range count).map (· + 1))

/-- Engraves a score: sets the options, loads the text and draws all its pages. -/
def engrave (engraver : Engraver) (score : List UInt8) :
    Except EngravingError (List String) × List EngraverCall :=
  match engraver.start, Text.Utf8.decode score with
  | .error failure, _ => (.error (.tool failure), [.setOptions])
  | .ok (), .error fault => (.error (.undecodable fault), [.setOptions])
  | .ok (), .ok text =>
    let calls := [.setOptions, .load (String.ofList text)]
    match engraver.loads (String.ofList text) with
    | .error failure => (.error (.tool failure), calls)
    | .ok false => (.error .notLoaded, calls)
    | .ok true =>
      let (result, more) := engraver.pages
      (result, calls ++ more)

/-- The HTML page of an engraved score. -/
def page (engraver : Engraver) (title : String) (score : List UInt8) :
    Except EngravingError String × List EngraverCall :=
  let (result, calls) := engraver.engrave score
  (result.map fun svgs => Page.render title svgs "", calls)

end Engraver

end Jianpu
