import Jianpu.Library.Store
import Jianpu.Proofs.Document.File

/-! Documents that come back from their files. A stored form keeps all but the titles,
whatever the blocks hold. A text keeps paragraphs; those that were read from one are
found again, and so is every list of contents that are paragraphs. -/

set_option autoImplicit false

namespace Jianpu.Document

open Text (IsFileText IsParagraph IsText)

variable {δ : Type} [Illegible δ] {tree : FileTree δ} {path : Path} {document again : Document}

/-- Writing a document to a file goes well, and whoever reads the file then has another one. -/
def ComesBack (tree : FileTree δ) (path : Path) (document again : Document) : Prop :=
  ∃ after, document.writeFile tree path = (.ok (), after) ∧
    ∀ reach, readFile reach after path {} = .ok again

theorem comesBack_of_storable (writable : tree.IsWritable path) (form : isStoredForm path = true)
    (storable : document.envelope.IsStorable)
    (texts : ∀ block ∈ document.blocks, IsText block.content.toList) :
    ComesBack tree path document { document with title := titleOf path, album := "" } :=
  readFile_of_kept writable (isFileText_of_stored form storable.knownKinds texts)
    (fun _ => ofFileText?_of_storable form storable)

theorem comesBack_of_melodies (writable : tree.IsWritable path) (plain : isStoredForm path = false)
    {contents : List (List Char)} (written : document.blocks = melodies contents)
    (fit : ∀ content ∈ contents, IsParagraph content ∧ IsFileText content) :
    ComesBack tree path document { title := titleOf path, blocks := document.blocks } :=
  readFile_of_kept writable
    (isFileText_of_melodies plain written fun content among => (fit content among).2)
    (fun _ => ofFileText?_of_melodies plain written fun content among => (fit content among).1)

/-- Any text file has a document: its paragraphs. -/
theorem readFile_of_readText (plain : isStoredForm path = false) {raw : String}
    (reads : tree.readText path = .ok raw) :
    ∃ document, (∀ reach, readFile reach tree path {} = .ok document) ∧
      document.blocks = melodies (Text.paragraphs raw.toList) := by
  have holds : ∀ reach,
      ofFileText? reach path raw = some { ofText raw with title := titleOf path } := by
    intro reach
    rw [ofFileText?, if_neg (by simp [plain]), Option.map_some]
  refine ⟨_, fun reach => readFile_eq_ok_iff.mpr ⟨raw, reads, holds reach⟩, ?_⟩
  dsimp only
  rw [ofText_eq_melodies]

theorem fit_of_readText {raw : String} (reads : tree.readText path = .ok raw) :
    ∀ content ∈ Text.paragraphs raw.toList, IsParagraph content ∧ IsFileText content := by
  intro content member
  obtain ⟨paragraph, isPart⟩ := Text.paragraph_of_mem member
  exact ⟨paragraph, isPart.isFileText (FileTree.isFileText_of_readText reads)⟩

theorem melodies_toList {contents : List String} (someContent : contents ≠ []) :
    contents.map (Block.mk .melody) = melodies (contents.map String.toList) := by
  rw [melodies, if_neg (by simpa using someContent), List.map_map]
  simp [Function.comp_def]

/-- Documents survive their files. A stored form that can be written comes back with the same
blocks, settings, key and tempo. The document of any text file comes back from any other text file
with the same blocks. Contents that are paragraphs are found again in the text they are written
as, and they come back from a file that they are written to unless one of them holds a half of a
pair. -/
theorem comes_back_from_file :
    (∀ (tree : FileTree δ) (path : Path) (document : Document), tree.IsWritable path →
      isStoredForm path = true → document.envelope.IsStorable →
      (∀ block ∈ document.blocks, IsText block.content.toList) →
        ∃ again, ComesBack tree path document again ∧ again.blocks = document.blocks ∧
          again.settings = document.settings ∧ again.keyIndex = document.keyIndex ∧
          again.tempo = document.tempo) ∧
    (∀ (tree : FileTree δ) (path : Path) (raw : String), isStoredForm path = false →
      tree.readText path = .ok raw →
        ∃ document, (∀ reach, readFile reach tree path {} = .ok document) ∧
          ∀ (other : FileTree δ) (target : Path), other.IsWritable target →
            isStoredForm target = false →
              ∃ again, ComesBack other target document again ∧ again.blocks = document.blocks) ∧
    ∀ (path : Path) (document : Document) (contents : List String), isStoredForm path = false →
      contents ≠ [] →
      (∀ content ∈ contents, IsParagraph content.toList ∧ '\r' ∉ content.toList) →
      document.blocks = contents.map (Block.mk .melody) →
        (∃ again, (∀ reach, ofFileText? reach path (document.fileText path) = some again) ∧
          again.blocks = document.blocks) ∧
        ((∀ content ∈ contents, IsText content.toList) →
          ∀ tree : FileTree δ, tree.IsWritable path →
            ∃ again, ComesBack tree path document again ∧ again.blocks = document.blocks) := by
  refine ⟨?_, ?_, ?_⟩
  · intro tree path document writable form storable texts
    exact ⟨_, comesBack_of_storable writable form storable texts, rfl, rfl, rfl, rfl⟩
  · intro tree path raw plain reads
    obtain ⟨document, read, blocks⟩ := readFile_of_readText plain reads
    refine ⟨document, read, ?_⟩
    intro other target writable plainTarget
    exact ⟨_, comesBack_of_melodies writable plainTarget blocks (fit_of_readText reads), rfl⟩
  · intro path document contents plain someContent paragraphs blocks
    have written := blocks.trans (melodies_toList someContent)
    refine ⟨⟨_, fun _ => ofFileText?_of_melodies plain written ?_, rfl⟩, ?_⟩
    · intro _ member
      obtain ⟨content, among, rfl⟩ := List.mem_map.mp member
      exact (paragraphs content among).1
    · intro texts tree writable
      refine ⟨_, comesBack_of_melodies writable plain written ?_, rfl⟩
      intro _ member
      obtain ⟨content, among, rfl⟩ := List.mem_map.mp member
      exact ⟨(paragraphs content among).1, texts content among, (paragraphs content among).2⟩

theorem comes_back_from_file_of_song :
    let old : List UInt8 := [0x31, 0x20, 0x32, 0x0D, 0x0A, 0x20, 0x0D, 0x33, 0x0A]
    let tree : FileTree Database := ⟨[(⟨"", ["old.txt"]⟩, .file old)]⟩
    let song : Document :=
      { keyIndex := 12, tempo := 90, settings := ⟨0, .whole (-3)⟩
        blocks := [⟨.chords, "C\r\n\n"⟩, ⟨.melody, ""⟩] }
    let verses : Document := { blocks := [⟨.melody, "1 2\n3"⟩, ⟨.melody, "[A] é"⟩] }
    (∃ again, ComesBack tree (Path.ofText "song.json") song again ∧ again.blocks = song.blocks ∧
      again.settings = song.settings ∧ again.keyIndex = song.keyIndex ∧
      again.tempo = song.tempo) ∧
    (∃ document, (∀ reach, readFile reach tree (Path.ofText "old.txt") {} = .ok document) ∧
      ∃ again, ComesBack tree (Path.ofText "new.txt") document again ∧
        again.blocks = document.blocks) ∧
    ∃ again, ComesBack tree (Path.ofText "old.txt") verses again ∧ again.blocks = verses.blocks := by
  intro old tree song verses
  obtain ⟨stored, text, written⟩ := comes_back_from_file (δ := Database)
  have writable : ∀ name ∈ ["song.json", "old.txt", "new.txt"],
      tree.IsWritable (Path.ofText name) := by
    have place : ∀ name ∈ ["song.json", "old.txt", "new.txt"],
        tree.placeToWrite (Path.ofText name).text = .ok ⟨"", [name]⟩ := by
      decide +kernel
    exact fun name member => ⟨_, place name member⟩
  have plain : ∀ name ∈ ["old.txt", "new.txt"], isStoredForm (Path.ofText name) = false := by
    decide +kernel
  have low : ∀ content ∈ ["C\r\n\n", "", "1 2\n3", "[A] é"],
      content.toList.all fun c => c.toNat < Text.CodePoint.firstStandIn := by
    decide +kernel
  have texts : ∀ content ∈ ["C\r\n\n", "", "1 2\n3", "[A] é"], IsText content.toList :=
    fun content member => Text.isText_of_spellsItself fun c inside =>
      Text.spellsItself_of_lt (of_decide_eq_true (List.all_eq_true.mp (low content member) c inside))
  refine ⟨stored tree _ song (writable _ (by decide)) (by decide +kernel) ?_ ?_, ?_, ?_⟩
  · refine ⟨List.cons_ne_nil _ _, by simp [envelope, song], (by decide : Json.IsShort 0),
      (by decide : Json.IsShort (-3)), ?_, ?_⟩
    · rintro _ ⟨⟩
      exact (by decide : Json.IsShort 12)
    · rintro _ ⟨⟩
      exact (by decide : Json.IsShort 90)
  · exact List.forall_mem_cons.mpr ⟨texts _ (by decide),
      List.forall_mem_cons.mpr ⟨texts _ (by decide), by simp⟩⟩
  · have reads : tree.readText (Path.ofText "old.txt") = .ok "1 2\n \n3\n" := by
      decide +kernel
    obtain ⟨document, read, comesBack⟩ := text tree _ _ (plain _ (by decide)) reads
    exact ⟨document, read, comesBack tree _ (writable _ (by decide)) (plain _ (by decide))⟩
  · have paragraphs : ∀ content ∈ ["1 2\n3", "[A] é"],
        IsParagraph content.toList ∧ '\r' ∉ content.toList := by
      have found : ∀ content ∈ ["1 2\n3", "[A] é"],
          content.toList ∈ Text.paragraphs content.toList ∧ '\r' ∉ content.toList := by
        decide +kernel
      exact fun content member =>
        ⟨(Text.paragraph_of_mem (found content member).1).1, (found content member).2⟩
    obtain ⟨-, comesBack⟩ := written (Path.ofText "old.txt") verses ["1 2\n3", "[A] é"]
      (plain _ (by decide)) (List.cons_ne_nil _ _) paragraphs rfl
    exact comesBack (fun content member => texts content (List.mem_of_mem_drop (i := 2) member))
      tree (writable _ (by decide))

/-- A half of a pair alone is a paragraph, but no file can hold it: it has no octets, and those
that would be its own are no text. -/
theorem half_does_not_come_back :
    let half : String := Text.ofCodePoints [.half 0]
    let verse : Document := { blocks := [⟨.melody, half⟩] }
    let octets : List UInt8 := [0xED, 0xA0, 0x80, 0x0A]
    let tree : FileTree Database := ⟨[(⟨"", ["song.txt"]⟩, .file octets)]⟩
    let path := Path.ofText "song.txt"
    tree.IsWritable path ∧ isStoredForm path = false ∧
      (IsParagraph half.toList ∧ '\r' ∉ half.toList) ∧
      (verse.writeFile tree path).1 = .error ⟨.unencodable ⟨0xD800, 0, 0⟩, "song.txt"⟩ ∧
      (¬ ∃ again, ComesBack tree path verse again) ∧
      ∀ reach, ∃ fault,
        readFile reach tree path {} = .error (.file ⟨.undecodable fault, "song.txt"⟩) := by
  intro half verse octets tree path
  have found : half.toList ∈ Text.paragraphs half.toList ∧ '\r' ∉ half.toList := by
    decide +kernel
  have refused : (verse.writeFile tree path).1 =
      .error ⟨.unencodable ⟨0xD800, 0, 0⟩, "song.txt"⟩ := by
    decide +kernel
  have writable : tree.IsWritable path := ⟨⟨"", ["song.txt"]⟩, by decide +kernel⟩
  have unread : tree.readText path =
      .error ⟨.undecodable ⟨0xED, 0, 1, .invalidContinuation⟩, "song.txt"⟩ := by
    decide +kernel
  refine ⟨writable, by decide +kernel, ⟨(Text.paragraph_of_mem found.1).1, found.2⟩, refused,
    ?_, fun reach => ⟨_, by rw [readFile, unread]⟩⟩
  rintro ⟨again, after, writes, -⟩
  rw [writes] at refused
  cases refused

end Jianpu.Document
