import Jianpu.File.Tree
import Jianpu.Proofs.Text.Paragraphs
import Jianpu.Proofs.Text.Utf8

/-! A file that is written. The path leads where it led before, since every
directory on the way is still there, and what is read at its end is what was
written. -/

set_option autoImplicit false

namespace Jianpu.FileTree

open Text (IsFileText)

variable {δ : Type} {tree : FileTree δ} {place here : Path} {octets : List UInt8}

/-- Nothing changes elsewhere. -/
theorem find?_put_other {entry : FileEntry δ} (apart : here.resolved ≠ place.resolved) :
    (tree.put place entry).find? here = tree.find? here := by
  have elsewhere : (place.resolved == here.resolved) = false := by
    simpa using Ne.symm apart
  have others : (tree.entries.filter fun entry => entry.1 != place.resolved).find?
      (fun entry => entry.1 == here.resolved) =
        tree.entries.find? fun entry => entry.1 == here.resolved := by
    rw [List.find?_filter]
    congr 1
    funext entry
    by_cases inPlace : entry.1 = here.resolved
    · simp [inPlace, apart]
    · simp [inPlace]
  rw [find?, find?, put, List.find?_cons_of_neg (by simp [elsewhere]), others]

section Put

variable {entry : FileEntry δ} (free : tree.find? place ≠ some .directory)

include free

theorem find?_put_self : (tree.put place entry).find? place = some entry := by
  rw [find?] at free ⊢
  split
  · rename_i top
    exact absurd (if_pos top) free
  · simp [put]

/-- Directories stay where they are when something else is replaced. -/
theorem find?_put_directory (directory : tree.find? here = some .directory) :
    (tree.put place entry).find? here = some .directory := by
  have apart : here.resolved ≠ place.resolved := by
    intro same
    have found : tree.find? place = tree.find? here := by
      simp only [find?, same]
    exact free (found.trans directory)
  rw [find?_put_other apart, directory]

theorem enter_put {parts : List String} {directory : Path}
    (entered : tree.enter here parts = .ok directory) :
    (tree.put place entry).enter here parts = .ok directory := by
  induction parts generalizing here with
  | nil => exact entered
  | cons part parts ih =>
      simp only [enter] at entered ⊢
      split at entered
      · rename_i dot
        rw [if_pos dot]
        exact ih entered
      rename_i noDot
      rw [if_neg noDot]
      split at entered
      · rename_i dots
        rw [if_pos dots]
        exact ih entered
      rename_i noDots
      rw [if_neg noDots]
      split at entered
      · cases entered
      rename_i short
      rw [if_neg short]
      split at entered
      · cases entered
      · rename_i found
        rw [find?_put_directory free found]
        exact ih entered
      · cases entered

theorem approach_put {text : String} {reached : Path × Option String}
    (approached : tree.approach text = .ok reached) :
    (tree.put place entry).approach text = .ok reached := by
  unfold approach at approached ⊢
  cases unusable : unusable? text with
  | some fault =>
      rw [unusable] at approached
      cases approached
  | none =>
      rw [unusable] at approached
      dsimp only at approached ⊢
      split at approached
      · exact approached
      · cases entered : tree.enter ⟨if (Path.rootOf text).isEmpty then "" else "/", []⟩
            (Path.components text).dropLast with
        | error fault =>
            rw [entered] at approached
            cases approached
        | ok directory =>
            rw [entered] at approached
            rw [enter_put free entered]
            exact approached

end Put

theorem exists_of_bind_eq_ok {ε α β : Type} {first : Except ε α} {next : α → Except ε β}
    {result : β} (both : (first >>= next) = .ok result) :
    ∃ value, first = .ok value ∧ next value = .ok result := by
  cases first with
  | error fault => cases both
  | ok value => exact ⟨value, rfl, both⟩

/-- A path leads to an ordinary file when its last component does. -/
theorem status_eq_file_iff {text : String} :
    tree.status text = .ok (.file octets) ↔
      ∃ directory name, tree.approach text = .ok (directory, some name) ∧
        tree.entryIn directory name = .ok (some (.file octets)) ∧ endsWithSlash text = false := by
  constructor
  · intro status
    obtain ⟨⟨directory, name⟩, approached, status⟩ := exists_of_bind_eq_ok status
    cases name with
    | none => cases status
    | some name =>
        obtain ⟨entry, inside, status⟩ := exists_of_bind_eq_ok status
        split at status
        · cases status
        · cases status
        · split at status
          · cases status
          · rename_i noSlash
            cases status
            exact ⟨directory, name, approached, inside, by simpa using noSlash⟩
  · rintro ⟨directory, name, approached, inside, noSlash⟩
    simp only [FileTree.status, approached, inside, noSlash, bind, Except.bind]
    rfl

/-- A place to write is a name, short enough, in the directory that the path leads to, and no
directory stands there. -/
theorem placeToWrite_eq_ok {text : String} (found : tree.placeToWrite text = .ok place) :
    ∃ directory name, tree.approach text = .ok (directory, some name) ∧
      endsWithSlash text = false ∧ isTooLong name = false ∧ place = directory.child name ∧
      tree.find? place ≠ some .directory := by
  obtain ⟨⟨directory, name⟩, approached, found⟩ := exists_of_bind_eq_ok found
  cases name with
  | none => cases found
  | some name =>
      dsimp only at found
      split at found
      · cases found
      · rename_i noSlash
        obtain ⟨entry, inside, found⟩ := exists_of_bind_eq_ok found
        unfold entryIn at inside
        split at inside
        · cases inside
        · rename_i short
          cases inside
          split at found
          · cases found
          · rename_i noDirectory
            cases found
            exact ⟨directory, name, approached, by simpa using noSlash, by simpa using short, rfl,
              noDirectory⟩

/-- What is written at a place is there afterwards. -/
theorem status_put {text : String} (found : tree.placeToWrite text = .ok place)
    (written : List UInt8) : (tree.put place (.file written)).status text = .ok (.file written) := by
  obtain ⟨directory, name, approached, noSlash, short, rfl, free⟩ := placeToWrite_eq_ok found
  refine status_eq_file_iff.mpr ⟨directory, name, approach_put free approached, ?_, noSlash⟩
  rw [entryIn, short, find?_put_self free]
  rfl

theorem status_of_writeOctets {text : String} {after : FileTree δ}
    (writes : tree.writeOctets text octets = .ok after) :
    after.status text = .ok (.file octets) := by
  unfold writeOctets at writes
  split at writes
  · cases writes
  · rename_i place found
    obtain rfl := Except.ok.inj writes
    exact status_put found octets

theorem readOctets_of_status {text : String} (status : tree.status text = .ok (.file octets)) :
    tree.readOctets text = .ok octets := by
  rw [readOctets, status]

/-- What is left behind when a text is written. -/
theorem writeText_eq_ok {path : Path} {text : String} {after : FileTree δ}
    (writes : tree.writeText path text = (.ok (), after)) :
    ∃ octets, Text.Utf8.encode text = .ok octets ∧
      tree.writeOctets path.text octets = .ok after := by
  unfold writeText at writes
  cases encoded : Text.Utf8.encode text with
  | error fault =>
      rw [encoded] at writes
      dsimp only at writes
      split at writes <;> cases writes
  | ok octets =>
      rw [encoded] at writes
      dsimp only at writes
      split at writes
      · cases writes
      · rename_i written wrote
        cases writes
        exact ⟨octets, rfl, wrote⟩

/-- A path that a file can be written to, an old one or a new one. -/
def IsWritable (tree : FileTree δ) (path : Path) : Prop :=
  ∃ place, tree.placeToWrite path.text = .ok place

/-- A file that is there can be written in its place. -/
theorem isWritable_of_status {path : Path} (status : tree.status path.text = .ok (.file octets)) :
    tree.IsWritable path := by
  obtain ⟨directory, name, approached, inside, noSlash⟩ := status_eq_file_iff.mp status
  refine ⟨directory.child name, ?_⟩
  simp only [placeToWrite, approached, inside, noSlash, bind, Except.bind]
  rfl

section Text

variable [Illegible δ] {path : Path}

theorem status_of_readText {old : String} (reads : tree.readText path = .ok old) :
    ∃ octets characters, tree.status path.text = .ok (.file octets) ∧
      Text.Utf8.decode octets = .ok characters ∧
      old = String.ofList (Text.unifyLineEnds characters) := by
  unfold readText at reads
  split at reads
  · cases reads
  · cases reads
  · cases reads
  · rename_i octets status
    split at reads
    · cases reads
    · rename_i characters decoded
      exact ⟨octets, characters, status, decoded, (Except.ok.inj reads).symm⟩

/-- What is read from a file is a text with line feeds alone. -/
theorem isFileText_of_readText {old : String} (reads : tree.readText path = .ok old) :
    IsFileText old.toList := by
  obtain ⟨octets, characters, -, decoded, rfl⟩ := status_of_readText reads
  rw [String.toList_ofList]
  exact ⟨Text.isText_unifyLineEnds (Text.Utf8.isText_of_decode decoded),
    Text.not_mem_unifyLineEnds characters⟩

theorem isWritable_of_readText {old : String} (reads : tree.readText path = .ok old) :
    tree.IsWritable path := by
  obtain ⟨octets, -, status, -, -⟩ := status_of_readText reads
  exact isWritable_of_status status

/-- A text that is written to a file is read from it afterwards. -/
theorem readText_writeText (writable : tree.IsWritable path) {text : String}
    (isText : IsFileText text.toList) :
    ∃ after, tree.writeText path text = (.ok (), after) ∧ after.readText path = .ok text := by
  obtain ⟨place, found⟩ := writable
  obtain ⟨spelled, encoded, decoded⟩ := Text.Utf8.decode_encode isText.1
  rw [String.ofList_toList] at encoded
  refine ⟨tree.put place (.file spelled), ?_, ?_⟩
  · rw [writeText, encoded]
    dsimp only
    rw [writeOctets, found]
  · rw [readText, status_put found]
    dsimp only
    rw [decoded]
    dsimp only
    rw [Text.unifyLineEnds_of_not_mem isText.2, String.ofList_toList]

end Text

end Jianpu.FileTree
