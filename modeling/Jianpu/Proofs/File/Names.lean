import Jianpu.Proofs.File.Rewrite

/-! Names in a directory. A file that is written into a directory stands at a place that ends in
its name, so that files with different names stand apart and one of them stays as it is when
another is written. -/

set_option autoImplicit false

namespace Jianpu

namespace FileName

/-- A name of a file that is the same as text and as octets. -/
structure IsPlain (name : String) : Prop where
  isAscii : ∀ c ∈ name.toList, c.toNat < 0x80
  noSlash : '/' ∉ name.toList
  isSome : name ≠ ""
  noStep : name ≠ ".."

theorem IsPlain.settled_eq {name : String} (isPlain : IsPlain name) : settled name = name := by
  rw [settled, if_pos (List.all_eq_true.mpr fun c member => decide_eq_true (isPlain.isAscii c member))]

end FileName

open FileName (IsPlain)

namespace Path

/-- A path whose root is one that a text can spell. -/
def IsRooted (path : Path) : Prop :=
  path.root ∈ ["", "/", "//"]

theorem isRooted_ofText (text : String) : (ofText text).IsRooted := by
  show rootOf text ∈ _
  unfold rootOf
  split <;> simp

theorem cutAtSlashes_ne_nil (characters : List Char) : cutAtSlashes characters ≠ [] := by
  cases characters with
  | nil => nofun
  | cons c rest =>
      rw [cutAtSlashes]
      split
      · nofun
      · split <;> nofun

theorem cutAtSlashes_append (left right : List Char) :
    cutAtSlashes (left ++ '/' :: right) = cutAtSlashes left ++ cutAtSlashes right := by
  induction left with
  | nil => rfl
  | cons c left ih =>
      rw [List.cons_append, cutAtSlashes, cutAtSlashes, ih]
      split
      · rfl
      · cases pieces : cutAtSlashes left with
        | nil => exact absurd pieces (cutAtSlashes_ne_nil left)
        | cons first others => rfl

theorem cutAtSlashes_of_not_mem {name : List Char} (noSlash : '/' ∉ name) :
    cutAtSlashes name = [name] := by
  induction name with
  | nil => rfl
  | cons c name ih =>
      obtain ⟨other, noSlash⟩ := List.ne_and_not_mem_of_not_mem_cons noSlash
      rw [cutAtSlashes, if_neg (Ne.symm other), ih noSlash]

theorem intercalate_concat (parts : List String) :
    ∃ front : String, (front = "" ∨ ∃ before, front = before ++ "/") ∧
      ∀ name, "/".intercalate (parts ++ [name]) = front ++ name := by
  induction parts with
  | nil => exact ⟨"", .inl rfl, fun name => by simp⟩
  | cons part parts ih =>
      obtain ⟨front, ends, same⟩ := ih
      refine ⟨part ++ "/" ++ front, .inr ?_, fun name => ?_⟩
      · rcases ends with rfl | ⟨before, rfl⟩
        · exact ⟨part, by simp⟩
        · exact ⟨part ++ "/" ++ before, by simp [String.append_assoc]⟩
      · cases parts with
        | nil => simp [← same, String.append_assoc]
        | cons next parts =>
            rw [List.cons_append, List.cons_append, String.intercalate_cons_cons,
              ← List.cons_append, same]
            simp only [String.append_assoc]

theorem text_child {path : Path} (isRooted : path.IsRooted) :
    ∃ front : String, (front = "" ∨ ∃ before, front = before ++ "/") ∧
      ∀ name, (path.child name).text = front ++ name := by
  obtain ⟨front, ends, same⟩ := intercalate_concat path.parts
  refine ⟨path.root ++ front, ?_, fun name => ?_⟩
  · rcases ends with rfl | ⟨before, rfl⟩
    · simp only [IsRooted, List.mem_cons, List.not_mem_nil, or_false] at isRooted
      rcases isRooted with none | one | two
      · exact .inl (by simp [none])
      · exact .inr ⟨"", by simp [one]⟩
      · exact .inr ⟨"/", by simp [two]⟩
    · exact .inr ⟨path.root ++ before, by rw [String.append_assoc]⟩
  · simp [text, child, same, String.append_assoc]

theorem getLast?_components_child {path : Path} (isRooted : path.IsRooted) {name : String}
    (isPlain : IsPlain name) : (components (path.child name).text).getLast? = some name := by
  obtain ⟨front, ends, same⟩ := text_child isRooted
  have single := cutAtSlashes_of_not_mem isPlain.noSlash
  obtain ⟨pieces, cut⟩ : ∃ pieces,
      cutAtSlashes (path.child name).text.toList = pieces ++ [name.toList] := by
    rw [same, String.toList_append]
    rcases ends with rfl | ⟨before, rfl⟩
    · exact ⟨[], single⟩
    · refine ⟨cutAtSlashes before.toList, ?_⟩
      rw [String.toList_append, List.append_assoc]
      exact (cutAtSlashes_append before.toList name.toList).trans (by rw [single])
  rw [components, cut, List.map_append, List.map_singleton, String.ofList_toList,
    List.filter_append, List.filter_cons_of_pos (by simpa using isPlain.isSome), List.filter_nil,
    List.getLast?_concat]

theorem resolved_child {path : Path} {name : String} (isPlain : IsPlain name) :
    (path.child name).resolved = path.resolved.child name := by
  simp only [resolved, child, List.foldl_append, List.foldl_cons, List.foldl_nil,
    if_neg isPlain.noStep, isPlain.settled_eq]
  rfl

/-- Paths that end in different names lead to different places. -/
theorem resolved_child_ne {path other : Path} {first second : String} (isFirst : IsPlain first)
    (isSecond : IsPlain second) (apart : first ≠ second) :
    (path.child first).resolved ≠ (other.child second).resolved := by
  intro same
  rw [resolved_child isFirst, resolved_child isSecond] at same
  have parts := congrArg (fun place => place.parts.getLast?) same
  simp only [child, List.getLast?_concat, Option.some.injEq] at parts
  exact apart parts

end Path

namespace FileTree

variable {δ : Type} {tree : FileTree δ}

theorem getLast?_of_approach {text name : String} {directory : Path}
    (approached : tree.approach text = .ok (directory, some name)) :
    (Path.components text).getLast? = some name := by
  unfold approach at approached
  split at approached
  · cases approached
  · dsimp only at approached
    split at approached
    · cases approached
    · rename_i last found
      obtain ⟨here, -, reached⟩ := exists_of_bind_eq_ok approached
      split at reached
      · cases reached
      · split at reached
        · cases reached
        · cases reached
          exact found

/-- A text that stands in the file of a path. -/
def Holds (tree : FileTree δ) (path : Path) (text : String) : Prop :=
  ∃ octets, Text.Utf8.encode text = .ok octets ∧ tree.status path.text = .ok (.file octets)

theorem holds_of_writeText {path : Path} {text : String} {after : FileTree δ}
    (writes : tree.writeText path text = (.ok (), after)) : after.Holds path text := by
  obtain ⟨octets, encoded, wrote⟩ := writeText_eq_ok writes
  exact ⟨octets, encoded, status_of_writeOctets wrote⟩

/-- A place where a file of the path is written. -/
def LeadsTo (tree : FileTree δ) (path place : Path) : Prop :=
  ∃ there, tree.placeToWrite path.text = .ok there ∧ place.resolved = there.resolved

theorem placeToWrite_of_free {text name : String} {directory : Path}
    (approached : tree.approach text = .ok (directory, some name))
    (noSlash : endsWithSlash text = false) (short : isTooLong name = false)
    (free : tree.find? (directory.child name) ≠ some .directory) :
    tree.placeToWrite text = .ok (directory.child name) := by
  have inside : tree.entryIn directory name = .ok (tree.find? (directory.child name)) := by
    rw [entryIn, short, if_neg Bool.false_ne_true]
  simp only [placeToWrite, approached, noSlash, inside, bind, Except.bind, Bool.false_eq_true,
    ↓reduceIte]
  rfl

/-- A file stays as it is when another place is written to. -/
theorem Holds.put {path place : Path} {text : String} {entry : FileEntry δ}
    (holds : tree.Holds path text) (free : tree.find? place ≠ some .directory)
    (apart : ¬ tree.LeadsTo path place) : (tree.put place entry).Holds path text := by
  obtain ⟨octets, encoded, status⟩ := holds
  obtain ⟨here, name, approached, inside, noSlash⟩ := status_eq_file_iff.mp status
  refine ⟨octets, encoded, status_eq_file_iff.mpr
    ⟨here, name, approach_put free approached, ?_, noSlash⟩⟩
  unfold entryIn at inside ⊢
  split at inside
  · cases inside
  · rename_i short
    have file := Except.ok.inj inside
    have elsewhere : (here.child name).resolved ≠ place.resolved := fun same =>
      apart ⟨here.child name, placeToWrite_of_free approached noSlash (by simpa using short)
        (by rw [file]; nofun), same.symm⟩
    rw [if_neg short, find?_put_other elsewhere, file]

/-- However two paths with different names come to their directories, they lead to places
that end in the two names. -/
theorem not_leadsTo_of_ne {directory other place : Path} (isRooted : directory.IsRooted)
    (isOtherRooted : other.IsRooted) {name last : String} (isPlain : IsPlain name)
    (isLast : IsPlain last) (apart : name ≠ last)
    (found : tree.placeToWrite (other.child last).text = .ok place) :
    ¬ tree.LeadsTo (directory.child name) place := by
  rintro ⟨own, ownFound, same⟩
  obtain ⟨there, reached, approached, -, -, rfl, -⟩ := placeToWrite_eq_ok found
  obtain ⟨here, named, ownApproached, -, -, rfl, -⟩ := placeToWrite_eq_ok ownFound
  obtain rfl := Option.some.inj ((getLast?_of_approach approached).symm.trans
    (Path.getLast?_components_child isOtherRooted isLast))
  obtain rfl := Option.some.inj ((getLast?_of_approach ownApproached).symm.trans
    (Path.getLast?_components_child isRooted isPlain))
  exact Path.resolved_child_ne isLast isPlain (Ne.symm apart) same

/-- A file of a directory stays as it is when another one of the directory is written. -/
theorem Holds.writeText {directory : Path} (isRooted : directory.IsRooted) {name other : String}
    (isPlain : IsPlain name) (isOther : IsPlain other) (apart : name ≠ other) {text written : String}
    (holds : tree.Holds (directory.child name) text) {after : FileTree δ}
    (writes : tree.writeText (directory.child other) written = (.ok (), after)) :
    after.Holds (directory.child name) text := by
  obtain ⟨spelled, -, wrote⟩ := writeText_eq_ok writes
  unfold writeOctets at wrote
  split at wrote
  · cases wrote
  · rename_i place found
    obtain rfl := Except.ok.inj wrote
    obtain ⟨-, -, -, -, -, -, free⟩ := placeToWrite_eq_ok found
    exact holds.put free (not_leadsTo_of_ne isRooted isRooted isPlain isOther apart found)

end FileTree

end Jianpu
