import Jianpu.Notation.Melody
import Jianpu.Position
import Jianpu.Text.Blank

set_option autoImplicit false

/-!
Documents: titled lists of blocks with a key, a tempo and layout settings. An edit yields a new
document or is refused; the meaning of the blocks is never stored but read off the text again.
-/
namespace Jianpu

open Number (Amount Scalar)

/-- The kinds of block: two that are known by name, and any other that a document may bring along. -/
inductive BlockKind where
  /-- Notation, read in the document's key. -/
  | melody
  /-- Chord text, shown as it is. -/
  | chords
  /-- A kind by another name, read as notation too. -/
  | other (name : String)
  deriving Repr, DecidableEq

/-- The name of a kind. -/
def BlockKind.name : BlockKind → String
  | .melody => "melody"
  | .chords => "chords"
  | .other name => name

/-- The known kind with a name. -/
def BlockKind.ofName? (name : String) : Option BlockKind :=
  if name = "melody" then some .melody
  else if name = "chords" then some .chords
  else none

/-- The kind with a name, whether it is known or not. -/
def BlockKind.ofName (name : String) : BlockKind :=
  (ofName? name).getD (.other name)

/-- One section of a document. -/
structure Block where
  kind : BlockKind := .melody
  content : String := ""
  deriving Repr, DecidableEq

/-- Distances of the layout in pixels. -/
structure Settings (α : Type) where
  /-- From one note to the next. -/
  spacing : α
  /-- From one staff step to the next. -/
  scale : α

/-- The settings of a new document. -/
def Settings.standard : Settings Amount := ⟨20, 20⟩

/-- A melody being edited. -/
structure Document where
  title : String := "Untitled Melody"
  album : String := ""
  /-- The catalog index of the key, in the catalog or not. -/
  keyIndex : Amount := .whole Key.defaultIndex
  tempo : Amount := 100
  blocks : List Block := [{}]
  settings : Settings Amount := .standard

/-- Why an edit is refused. -/
inductive EditError where
  /-- No block stands at the position. -/
  | noSuchBlock
  /-- A position is no number that can count blocks. -/
  | uncountable
  /-- No kind of block has this name. -/
  | unknownKind (name : String)
  deriving Repr, DecidableEq

/-- The wording of a refused edit; there is none for a position. -/
def EditError.message? : EditError → Option String
  | .noSuchBlock | .uncountable => none
  | .unknownKind name => some ("Unknown block type '" ++ name ++ "'.")

namespace Document

/-- The block at a position. -/
def block? (document : Document) (index : Int) : Option Block :=
  (position? document.blocks.length index).map fun place => document.blocks[place]

/-- Gives the block at a position a new content. -/
def updateBlock (document : Document) (index : Int) (content : String) :
    Except EditError Document :=
  match position? document.blocks.length index with
  | none => .error .noSuchBlock
  | some place =>
    let block := document.blocks[place]
    .ok { document with blocks := document.blocks.set place { block with content } }

/-- Adds a block at the end. -/
def addBlock (document : Document) (kind : BlockKind) (content : String) : Document :=
  { document with blocks := document.blocks ++ [⟨kind, content⟩] }

/-- Adds a block whose kind is given by name. -/
def addNamedBlock (document : Document) (kindName content : String) : Except EditError Document :=
  match BlockKind.ofName? kindName with
  | some kind => .ok (document.addBlock kind content)
  | none => .error (.unknownKind kindName)

/-- Removes the block at a position. The last remaining block is kept, whatever the position. -/
def removeBlock (document : Document) (index : Int) : Except EditError Document :=
  if document.blocks.length ≤ 1 then .ok document
  else
    match position? document.blocks.length index with
    | none => .error .noSuchBlock
    | some place => .ok { document with blocks := document.blocks.eraseIdx place }

/-- Takes the block at a position out and inserts it again at another one, counted without it. Both
have to be countable; the first one is looked at first. -/
def moveBlock (document : Document) (index target : Int) : Except EditError Document :=
  match position? document.blocks.length index with
  | none => .error (if isCountable index then .noSuchBlock else .uncountable)
  | some place =>
    let block := document.blocks[place]
    let others := document.blocks.eraseIdx place
    if isCountable target then
      .ok { document with blocks := others.insertIdx (insertionPoint others.length target) block }
    else .error .uncountable

/-- The content with a token added after a single space; blanks at its end give way. -/
def appended (content token : String) : String :=
  let existing := Text.trimEnd content
  if existing.isEmpty then Text.trim token else existing ++ " " ++ Text.trim token

/-- Appends a token to the block at a position. -/
def appendToBlock (document : Document) (index : Int) (token : String) :
    Except EditError Document :=
  match document.block? index with
  | none => .error .noSuchBlock
  | some block => document.updateBlock index (appended block.content token)

/-- Sets the key, in the catalog or not. -/
def setKey (document : Document) (keyIndex : Int) : Document :=
  { document with keyIndex := .whole keyIndex }

/-- Sets the layout settings. -/
def setSettings (document : Document) (settings : Settings Amount) : Document :=
  { document with settings }

/-- The key the melodies are read in. -/
def key (document : Document) : Key :=
  Key.ofStored document.keyIndex.whole?

end Document

/-- The meaning of a block in a key. -/
def Block.meaning {α : Type} [Scalar α] (key : Key) (block : Block) : Notation.Section α :=
  match block.kind with
  | .chords => .chords (Text.codePoints block.content) block.content
  | .melody | .other _ => .melody (Notation.Melody.ofText key block.content) block.content

/-- The meaning of every block of a document. -/
def Document.sections {α : Type} [Scalar α] (document : Document) : List (Notation.Section α) :=
  document.blocks.map (Block.meaning document.key)

end Jianpu
