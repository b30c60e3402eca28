import Jianpu.Document.File
import Jianpu.Proofs.Document.Envelope
import Jianpu.Proofs.File.Rewrite
import Jianpu.Proofs.Json.ReadStrings
import Jianpu.Proofs.Text.Paragraphs

/-! Documents in files. A stored form can hold any blocks of known kinds, and a text
any paragraphs; a document whose blocks fit the form of a file reads back from it
as it was written. -/

set_option autoImplicit false

namespace Jianpu

open Json (AllNumbers AllStrings IsReadable IsShortIfWhole IsSpelledText)
open Number (Amount)
open Text (IsFileText IsParagraph IsSpelled IsText)

/-! Contents that were read -/

namespace Envelope

theorem spelled_of_strictBlock? {json : Json} {block : Block}
    (spelled : AllStrings IsSpelledText json) (read : strictBlock? json = some block) :
    IsSpelled block.content.toList := by
  obtain ⟨_, -, read⟩ := Option.bind_eq_some_iff.mp read
  obtain ⟨_, -, read⟩ := Option.bind_eq_some_iff.mp read
  obtain ⟨_, -, read⟩ := Option.bind_eq_some_iff.mp read
  obtain ⟨member, found, read⟩ := Option.bind_eq_some_iff.mp read
  obtain ⟨content, text, made⟩ := Option.bind_eq_some_iff.mp read
  cases made
  exact (spelled.get? found).string? text

theorem spelled_of_lenientBlock? {json : Json} {block : Block}
    (spelled : AllStrings IsSpelledText json) (read : lenientBlock? json = some block) :
    IsSpelled block.content.toList := by
  unfold lenientBlock? at read
  split at read
  · cases read
    exact spelled
  · cases read
    dsimp only
    cases found : ((Json.object _).get? "content").bind Json.string? with
    | none => exact Text.spellsOnly_nil
    | some content =>
        obtain ⟨member, present, text⟩ := Option.bind_eq_some_iff.mp found
        exact (spelled.get? present).string? text
  · cases read

theorem spelled_of_mapM {read? : Json → Option Block}
    (each : ∀ {json : Json} {block : Block}, AllStrings IsSpelledText json →
      read? json = some block → IsSpelled block.content.toList)
    {json : Json} {items : List Json} (spelled : AllStrings IsSpelledText json)
    (found : json.items? = some items) {blocks : List Block}
    (read : items.mapM read? = some blocks) :
    ∀ block ∈ blocks, IsSpelled block.content.toList := by
  have spelledItems : ∀ item ∈ items, AllStrings IsSpelledText item := by
    cases json with
    | array others =>
        cases found
        exact Json.allStringsOfItems_iff.mp spelled
    | _ => cases found
  clear spelled found
  induction items generalizing blocks with
  | nil =>
      cases read
      simp
  | cons item items ih =>
      rw [List.mapM_cons] at read
      obtain ⟨first, readFirst, read⟩ := Option.bind_eq_some_iff.mp read
      obtain ⟨others, readOthers, made⟩ := Option.bind_eq_some_iff.mp read
      cases made
      exact List.forall_mem_cons.mpr ⟨each (spelledItems item List.mem_cons_self) readFirst,
        ih readOthers fun other among => spelledItems other (List.mem_cons_of_mem item among)⟩

theorem spelled_of_current? {json : Json} {envelope : Envelope}
    (spelled : AllStrings IsSpelledText json) (read : current? json = some envelope) :
    ∀ block ∈ envelope.blocks, IsSpelled block.content.toList := by
  obtain ⟨_, found, read⟩ := Option.bind_eq_some_iff.mp read
  obtain ⟨items, array, read⟩ := Option.bind_eq_some_iff.mp read
  obtain ⟨_, -, read⟩ := Option.bind_eq_some_iff.mp read
  obtain ⟨_, -, read⟩ := Option.bind_eq_some_iff.mp read
  obtain ⟨_, -, read⟩ := Option.bind_eq_some_iff.mp read
  obtain ⟨_, -, read⟩ := Option.bind_eq_some_iff.mp read
  obtain ⟨_, -, read⟩ := Option.bind_eq_some_iff.mp read
  obtain ⟨blocks, readBlocks, made⟩ := Option.bind_eq_some_iff.mp read
  cases made
  exact spelled_of_mapM spelled_of_strictBlock? (spelled.get? found) array readBlocks

theorem spelled_of_lenientObject? {json : Json} {envelope : Envelope}
    (spelled : AllStrings IsSpelledText json) (read : lenientObject? json = some envelope) :
    ∀ block ∈ envelope.blocks, IsSpelled block.content.toList := by
  obtain ⟨_, found, read⟩ := Option.bind_eq_some_iff.mp read
  obtain ⟨items, array, read⟩ := Option.bind_eq_some_iff.mp read
  obtain ⟨blocks, readBlocks, made⟩ := Option.bind_eq_some_iff.mp read
  cases made
  exact spelled_of_mapM spelled_of_lenientBlock? (spelled.get? found) array readBlocks

theorem spelled_of_lenientArray? {json : Json} {envelope : Envelope}
    (spelled : AllStrings IsSpelledText json) (read : lenientArray? json = some envelope) :
    ∀ block ∈ envelope.blocks, IsSpelled block.content.toList := by
  obtain ⟨items, array, read⟩ := Option.bind_eq_some_iff.mp read
  obtain ⟨blocks, readBlocks, made⟩ := Option.bind_eq_some_iff.mp read
  cases made
  exact spelled_of_mapM spelled_of_lenientBlock? spelled array readBlocks

/-- The contents of the blocks that are read from a spelled text are spelled. -/
theorem spelled_decode {raw : String} (spelled : IsSpelled raw.toList) :
    ∀ block ∈ (decode raw).blocks, IsSpelled block.content.toList := by
  have ofRaw : ∀ block ∈ (ofRaw raw).blocks, IsSpelled block.content.toList := by
    simpa [Envelope.ofRaw] using spelled
  unfold decode
  split
  · exact ofRaw
  · rename_i json parsed
    have strings := Json.spelled_of_parse? spelled parsed
    split
    · exact ofRaw
    · rename_i envelope read
      have spelledBlocks : ∀ block ∈ envelope.blocks, IsSpelled block.content.toList := by
        rcases Option.or_eq_some_iff.mp read with read | ⟨-, array⟩
        · rcases Option.or_eq_some_iff.mp read with current | ⟨-, object⟩
          · exact spelled_of_current? strings current
          · exact spelled_of_lenientObject? strings object
        · exact spelled_of_lenientArray? strings array
      split
      · simpa using Text.spellsOnly_nil
      · exact spelledBlocks

/-- The stored text of texts is kept by a file as it is. -/
theorem isFileText_encode {envelope : Envelope}
    (knownKinds : ∀ block ∈ envelope.blocks, block.kind = .melody ∨ block.kind = .chords)
    (texts : ∀ block ∈ envelope.blocks, IsText block.content.toList) :
    IsFileText envelope.encode.toList := by
  have name : ∀ s : String, s.toList.all Text.isPlain = true → IsText s.toList :=
    fun s plain => (Text.isFileText_of_plain plain).1
  have blocks : ∀ item ∈ envelope.blocks.map blockJson,
      AllStrings (fun s => IsText s.toList) item := by
    intro item member
    obtain ⟨block, among, rfl⟩ := List.mem_map.mp member
    have kind : IsText block.kind.name.toList := by
      rcases knownKinds block among with kind | kind
      all_goals
        rw [kind]
        exact name _ (by decide)
    exact ⟨name _ (by decide), kind, name _ (by decide), texts block among, trivial⟩
  have strings : AllStrings (fun s => IsText s.toList) envelope.toJson := by
    refine Json.allStringsOfMembers_iff.mpr ?_
    intro member present
    simp only [List.mem_append, List.mem_cons, List.not_mem_nil, or_false, Option.mem_toList,
      Option.map_eq_some_iff] at present
    rcases present with ((rfl | rfl) | ⟨index, -, rfl⟩) | ⟨beats, -, rfl⟩
    · exact ⟨name "blocks" (by decide), Json.allStringsOfItems_iff.mpr blocks⟩
    · exact ⟨name "settings" (by decide), name _ (by decide), trivial, name _ (by decide), trivial,
        trivial⟩
    · exact ⟨name "keyIndex" (by decide), trivial⟩
    · exact ⟨name "tempoBPM" (by decide), trivial⟩
  rw [encode, Json.text, String.toList_ofList]
  exact Json.isFileText_chars _ strings

end Envelope

namespace Document

/-! What a file can hold -/

/-- Blocks that the form of a file can hold: those of a stored form, those of a text
with paragraphs, and the one of a text without any. -/
inductive FitsFile (path : Path) : List Block → Prop where
  | stored {blocks : List Block} : isStoredForm path = true → blocks ≠ [] →
      (∀ block ∈ blocks, block.kind = .melody ∨ block.kind = .chords) →
      (∀ block ∈ blocks, IsText block.content.toList) → FitsFile path blocks
  | paragraphs {blocks : List Block} : isStoredForm path = false → blocks ≠ [] →
      (∀ block ∈ blocks, block.kind = .melody ∧ IsParagraph block.content.toList ∧
        IsFileText block.content.toList) → FitsFile path blocks
  | nothing : isStoredForm path = false → FitsFile path [{}]

variable {reach : Envelope.Reach} {path : Path} {document : Document} {blocks : List Block}
  {text : String}

/-- A document in a file is that of the stored form, or that of a text. -/
theorem ofFileText?_eq_some (read : ofFileText? reach path text = some document) :
    isStoredForm path = true ∧
        document = { ofEnvelope (Envelope.decode text) with title := titleOf path } ∨
      isStoredForm path = false ∧ document = { ofText text with title := titleOf path } := by
  rw [ofFileText?] at read
  obtain ⟨found, reads, rfl⟩ := Option.map_eq_some_iff.mp read
  by_cases form : isStoredForm path = true
  · rw [if_pos form] at reads
    obtain ⟨envelope, decoded, rfl⟩ := Option.map_eq_some_iff.mp reads
    unfold Envelope.decode? at decoded
    split at decoded
    · cases decoded
    · cases decoded
      exact .inl ⟨form, rfl⟩
  · rw [if_neg form] at reads
    cases reads
    exact .inr ⟨by simpa using form, rfl⟩

/-- The blocks that a file holds fit it. -/
theorem fits_of_ofFileText? (read : ofFileText? reach path text = some document)
    (isFileText : IsFileText text.toList)
    (clear : ∀ block ∈ document.blocks, Text.Utf8.encodingFault? block.content = none) :
    FitsFile path document.blocks := by
  rcases ofFileText?_eq_some read with ⟨form, rfl⟩ | ⟨plain, rfl⟩
  · have regular := Envelope.regular_decode text
    have spelled := Envelope.spelled_decode isFileText.1.isSpelled
    refine .stored form regular.someBlock regular.knownKinds ?_
    intro block member
    refine Text.isText_of_clear (spelled block member) ?_
    rw [String.ofList_toList]
    exact clear block member
  · dsimp only [ofText]
    split
    · exact .nothing plain
    · rename_i some
      refine .paragraphs plain (by simpa using some) ?_
      intro block member
      obtain ⟨content, among, rfl⟩ := List.mem_map.mp member
      obtain ⟨paragraph, isPart⟩ := Text.paragraph_of_mem among
      rw [String.toList_ofList]
      exact ⟨rfl, paragraph, isPart.isFileText isFileText⟩

theorem toList_fileText_of_text (plain : isStoredForm path = false) :
    (document.fileText path).toList =
      Text.spaced (document.blocks.map (·.content.toList)) ++ ['\n'] := by
  rw [fileText, if_neg (by simp [plain]), String.toList_append, String.toList_intercalate,
    List.map_map]
  rfl

theorem isFileText_spaced {parts : List (List Char)} (texts : ∀ part ∈ parts, IsFileText part) :
    IsFileText (Text.spaced parts) := by
  induction parts with
  | nil => exact Text.isFileText_of_plain rfl
  | cons part parts ih =>
      have first := texts part List.mem_cons_self
      have rest := ih fun other among => texts other (List.mem_cons_of_mem part among)
      cases parts with
      | nil => simpa [Text.spaced] using first
      | cons next parts =>
          have gap : IsFileText ['\n', '\n'] := Text.isFileText_of_plain (by decide)
          rw [Text.spaced_cons_cons]
          exact first.append (gap.append rest)

/-- The blocks of a text with paragraphs: one of melody for each of them, or an empty one. -/
def melodies (contents : List (List Char)) : List Block :=
  if contents.isEmpty then [{}]
  else contents.map fun content => ⟨.melody, String.ofList content⟩

/-- Blocks that a text can hold are those of its paragraphs. -/
theorem FitsFile.eq_melodies (fits : FitsFile path blocks) (plain : isStoredForm path = false) :
    ∃ contents, blocks = melodies contents ∧
      ∀ content ∈ contents, IsParagraph content ∧ IsFileText content := by
  cases fits with
  | stored form =>
      rw [plain] at form
      cases form
  | paragraphs _ someBlock fit =>
      refine ⟨blocks.map (·.content.toList), ?_, ?_⟩
      · rw [melodies, if_neg (by simpa using someBlock), List.map_map]
        refine ((List.map_congr_left fun block member => ?_).trans (List.map_id blocks)).symm
        simp [← (fit block member).1]
      · intro content among
        obtain ⟨block, member, rfl⟩ := List.mem_map.mp among
        exact (fit block member).2
  | nothing => exact ⟨[], rfl, by simp⟩

theorem ofText_eq_melodies (text : String) :
    ofText text = { blocks := melodies (Text.paragraphs text.toList) } := by
  simp only [ofText, melodies, List.isEmpty_map]

section Melodies

variable {contents : List (List Char)} (plain : isStoredForm path = false)
  (written : document.blocks = melodies contents)

include plain written

theorem toList_fileText_of_melodies :
    (document.fileText path).toList = Text.spaced contents ++ ['\n'] := by
  rw [toList_fileText_of_text plain, written]
  cases contents with
  | nil => rfl
  | cons content contents => simp [melodies, Function.comp_def]

theorem isFileText_of_melodies (texts : ∀ content ∈ contents, IsFileText content) :
    IsFileText (document.fileText path).toList := by
  have newline : IsFileText ['\n'] := Text.isFileText_of_plain (by decide)
  rw [toList_fileText_of_melodies plain written]
  exact (isFileText_spaced texts).append newline

/-- Paragraphs that are written as a text are found in it again. -/
theorem ofFileText?_of_melodies (paragraphs : ∀ content ∈ contents, IsParagraph content) :
    ofFileText? reach path (document.fileText path) =
      some { title := titleOf path, blocks := document.blocks } := by
  have feed : ∀ c ∈ ['\n'], Text.isBlank c = true := List.all_eq_true.mp (by decide)
  rw [ofFileText?, if_neg (by simp [plain]), ofText_eq_melodies,
    toList_fileText_of_melodies plain written, Text.paragraphs_spaced paragraphs feed, written]
  rfl

end Melodies

/-- What the stored form of a document holds. -/
def envelope (document : Document) : Envelope :=
  ⟨document.blocks, document.settings, some document.keyIndex, some document.tempo⟩

/-- A document with its settings as their texts are read. -/
def reread (document : Document) : Document :=
  { document with
    settings := ⟨Json.reread document.settings.spacing, Json.reread document.settings.scale⟩ }

theorem reread_of_readable (spacing : IsReadable document.settings.spacing)
    (scale : IsReadable document.settings.scale) : document.reread = document := by
  rw [reread, Json.reread_of_readable spacing, Json.reread_of_readable scale]

section Stored

variable (form : isStoredForm path = true)

include form

theorem fileText_of_stored : document.fileText path = document.envelope.encode :=
  if_pos form

theorem isFileText_of_stored
    (knownKinds : ∀ block ∈ document.blocks, block.kind = .melody ∨ block.kind = .chords)
    (texts : ∀ block ∈ document.blocks, IsText block.content.toList) :
    IsFileText (document.fileText path).toList := by
  rw [fileText_of_stored form]
  exact Envelope.isFileText_encode knownKinds texts

/-- A document in its stored form is read again, but for its titles, and for settings that are
binary64 numbers: those are as their texts are read. -/
theorem ofFileText?_of_regular (regular : document.envelope.IsRegular IsShortIfWhole) :
    ofFileText? reach path (document.fileText path) =
      some { document.reread with title := titleOf path, album := "" } := by
  rw [ofFileText?, if_pos form, fileText_of_stored form,
    Envelope.decode?_encode_of_regular regular reach]
  rfl

theorem ofFileText?_of_storable (storable : document.envelope.IsStorable) :
    ofFileText? reach path (document.fileText path) =
      some { document with title := titleOf path, album := "" } := by
  rw [ofFileText?_of_regular form storable.short,
    reread_of_readable storable.spacing storable.scale]

end Stored

theorem readable_ofEnvelope {envelope : Envelope}
    (old : envelope.IsRegular IsShortIfWhole) :
    IsReadable (ofEnvelope envelope).keyIndex ∧ IsReadable (ofEnvelope envelope).tempo := by
  constructor
  · cases given : envelope.keyIndex with
    | none =>
        have standard : IsReadable (.whole Key.defaultIndex) :=
          (by decide : Json.IsShort Key.defaultIndex)
        simpa [ofEnvelope, given] using standard
    | some index => simpa [ofEnvelope, given] using old.keyIndex index given
  · cases given : envelope.tempo with
    | none =>
        have standard : IsReadable 100 := (by decide : Json.IsShort 100)
        simpa [ofEnvelope, given] using standard
    | some tempo => simpa [ofEnvelope, given] using old.tempo tempo given

theorem readable_of_ofFileText? (read : ofFileText? reach path text = some document) :
    IsReadable document.keyIndex ∧ IsReadable document.tempo ∧
      IsShortIfWhole document.settings.spacing ∧ IsShortIfWhole document.settings.scale := by
  rcases ofFileText?_eq_some read with ⟨-, rfl⟩ | ⟨-, rfl⟩
  · have old := Envelope.regular_decode text
    obtain ⟨keyIndex, tempo⟩ := readable_ofEnvelope old
    exact ⟨keyIndex, tempo, old.spacing, old.scale⟩
  · exact ⟨(by decide : Json.IsShort Key.defaultIndex), (by decide : Json.IsShort 100),
      Envelope.standard_short, Envelope.standard_short⟩

theorem titles_of_ofFileText? (read : ofFileText? reach path text = some document) :
    document.title = titleOf path ∧ document.album = "" := by
  rcases ofFileText?_eq_some read with ⟨-, rfl⟩ | ⟨-, rfl⟩ <;> exact ⟨rfl, rfl⟩

/-- A document of a text has nothing but blocks and a title. -/
theorem eq_of_ofFileText? (read : ofFileText? reach path text = some document)
    (plain : isStoredForm path = false) (blocks : List Block) :
    { document with blocks } = { title := titleOf path, blocks := blocks } := by
  rcases ofFileText?_eq_some read with ⟨form, -⟩ | ⟨-, rfl⟩
  · rw [plain] at form
    cases form
  · rfl

/-- Of a document that was read, the blocks can be exchanged for others that fit the file, and the
key for another one: what is written then is kept by the file, and reads back. A text holds no
key. -/
theorem ofFileText?_fileText_in (read : ofFileText? reach path text = some document)
    (fits : FitsFile path blocks) {keyIndex : Amount} (readable : IsReadable keyIndex) :
    IsFileText (({ document with blocks, keyIndex } : Document).fileText path).toList ∧
      ∀ later, ofFileText? later path
          (({ document with blocks, keyIndex } : Document).fileText path) =
        some (if isStoredForm path then ({ document with blocks, keyIndex } : Document).reread
          else { document with blocks }) := by
  cases form : isStoredForm path with
  | false =>
      obtain ⟨contents, rfl, fit⟩ := fits.eq_melodies form
      refine ⟨isFileText_of_melodies form rfl fun content among => (fit content among).2,
        fun later => ?_⟩
      rw [ofFileText?_of_melodies form rfl fun content among => (fit content among).1,
        if_neg (by simp), eq_of_ofFileText? read form]
  | true =>
      obtain ⟨-, tempo, spacing, scale⟩ := readable_of_ofFileText? read
      have titles := titles_of_ofFileText? read
      cases fits with
      | stored _ someBlock known texts =>
          have regular : (envelope { document with blocks, keyIndex }).IsRegular IsShortIfWhole :=
            ⟨someBlock, known, spacing, scale, by simpa [envelope] using readable,
              by simpa [envelope] using tempo⟩
          refine ⟨isFileText_of_stored form known texts, fun later => ?_⟩
          rw [ofFileText?_of_regular form regular, if_pos rfl, ← titles.1, ← titles.2]
          rfl
      | paragraphs plain | nothing plain =>
          rw [form] at plain
          cases plain

/-- Of a document that was read with whole settings, the blocks can be exchanged for others that
fit the file: what is written then is kept by the file, and reads back. -/
theorem ofFileText?_fileText (read : ofFileText? reach path text = some document)
    (spacing : document.settings.spacing.whole?.isSome)
    (scale : document.settings.scale.whole?.isSome) (fits : FitsFile path blocks) :
    IsFileText (({ document with blocks } : Document).fileText path).toList ∧
      ∀ later, ofFileText? later path (({ document with blocks } : Document).fileText path) =
        some { document with blocks } := by
  obtain ⟨keyIndex, -, shortSpacing, shortScale⟩ := readable_of_ofFileText? read
  obtain ⟨kept, again⟩ := ofFileText?_fileText_in read fits keyIndex
  have settled : ({ document with blocks } : Document).reread = { document with blocks } :=
    reread_of_readable (Envelope.readable_of_whole shortSpacing spacing)
      (Envelope.readable_of_whole shortScale scale)
  simp only [settled, ite_self] at again
  exact ⟨kept, again⟩

section Tree

variable {δ : Type} [Illegible δ] {tree : FileTree δ}

theorem readFile_eq_ok_iff :
    readFile reach tree path {} = .ok document ↔
      ∃ text, tree.readText path = .ok text ∧ ofFileText? reach path text = some document := by
  have nothing : ∀ other : Document, other.overridden {} = other := fun _ => rfl
  unfold readFile
  constructor
  · intro read
    split at read
    · cases read
    · rename_i text reads
      split at read
      · cases read
      · rename_i found holds
        rw [nothing] at read
        exact ⟨text, reads, holds.trans (congrArg some (Except.ok.inj read))⟩
  · rintro ⟨text, reads, holds⟩
    rw [reads]
    dsimp only
    rw [holds]
    dsimp only
    rw [nothing]

theorem fits_of_readFile (read : readFile reach tree path {} = .ok document)
    (clear : ∀ block ∈ document.blocks, Text.Utf8.encodingFault? block.content = none) :
    FitsFile path document.blocks := by
  obtain ⟨text, reads, holds⟩ := readFile_eq_ok_iff.mp read
  exact fits_of_ofFileText? holds (FileTree.isFileText_of_readText reads) clear

/-- A text that a file keeps is written to it, and what it holds is read again. -/
theorem readFile_of_kept {again : Document} (writable : tree.IsWritable path)
    (kept : IsFileText (document.fileText path).toList)
    (holds : ∀ later, ofFileText? later path (document.fileText path) = some again) :
    ∃ after, document.writeFile tree path = (.ok (), after) ∧
      ∀ later, readFile later after path {} = .ok again := by
  obtain ⟨after, writes, reads⟩ := FileTree.readText_writeText writable kept
  exact ⟨after, writes, fun later => readFile_eq_ok_iff.mpr ⟨_, reads, holds later⟩⟩

/-- A document that was read from a file with whole settings is written to it with other blocks
that fit, and is read from it like that. -/
theorem readFile_writeFile (read : readFile reach tree path {} = .ok document)
    (spacing : document.settings.spacing.whole?.isSome)
    (scale : document.settings.scale.whole?.isSome) (fits : FitsFile path blocks) :
    ∃ after, ({ document with blocks } : Document).writeFile tree path = (.ok (), after) ∧
      ∀ later, readFile later after path {} = .ok { document with blocks } := by
  obtain ⟨text, reads, holds⟩ := readFile_eq_ok_iff.mp read
  obtain ⟨kept, again⟩ := ofFileText?_fileText holds spacing scale fits
  exact readFile_of_kept (FileTree.isWritable_of_readText reads) kept again

end Tree

end Document

end Jianpu
