import Jianpu.Proofs.File.Names

/-! What stays as it is in a tree. Where directories are made, nothing that stood there is
changed; a file that is written changes its own place only, and no path leads elsewhere for it. -/

set_option autoImplicit false

namespace Jianpu.FileTree

variable {δ : Type} {tree made after : FileTree δ} {path place : Path}

/-- A tree with further directories, at places where nothing stood. -/
def IsExtendedBy (tree made : FileTree δ) : Prop :=
  ∀ place, made.find? place = tree.find? place ∨
    tree.find? place = none ∧ made.find? place = some .directory

/-! Directories -/

theorem isExtendedBy_refl : tree.IsExtendedBy tree :=
  fun _ => .inl rfl

theorem IsExtendedBy.trans (first : tree.IsExtendedBy made) (second : made.IsExtendedBy after) :
    tree.IsExtendedBy after := by
  intro place
  rcases first place with same | ⟨absent, new⟩
  · rw [← same]
    exact second place
  · rcases second place with same | ⟨gone, -⟩
    · exact .inr ⟨absent, same.trans new⟩
    · cases new.symm.trans gone

theorem find?_congr (same : path.resolved = place.resolved) : tree.find? path = tree.find? place := by
  rw [find?, find?, same]

theorem isExtendedBy_makeDirectory {text : String} (makes : tree.makeDirectory text = .ok made) :
    tree.IsExtendedBy made := by
  obtain ⟨⟨directory, name⟩, -, makes⟩ := exists_of_bind_eq_ok makes
  cases name with
  | none => cases makes
  | some name =>
      obtain ⟨entry, inside, makes⟩ := exists_of_bind_eq_ok makes
      cases entry with
      | some entry => cases makes
      | none =>
          cases makes
          have absent : tree.find? (directory.child name) = none := by
            unfold entryIn at inside
            split at inside
            · cases inside
            · exact Except.ok.inj inside
          intro place
          by_cases there : place.resolved = (directory.child name).resolved
          · refine .inr ⟨(find?_congr there).trans absent, ?_⟩
            rw [find?_congr there]
            exact find?_put_self (by rw [absent]; nofun)
          · exact .inl (find?_put_other there)

theorem isExtendedBy_makeWithin (tree : FileTree δ) (path : Path) (depth : Nat) :
    tree.IsExtendedBy (tree.makeWithin path depth).2 := by
  induction depth generalizing path with
  | zero => exact isExtendedBy_refl
  | succ depth ih =>
      have settled {above : FileTree δ} {fault : FileFault} (extended : tree.IsExtendedBy above) :
          tree.IsExtendedBy (if above.leadsToDirectory path.text then (.ok (), above)
            else (.error ⟨fault, path.text⟩, above) : Except FileError Unit × FileTree δ).2 := by
        split <;> exact extended
      unfold makeWithin
      split
      · rename_i makes
        exact isExtendedBy_makeDirectory makes
      · have above := ih path.parent
        split
        · rename_i partly stopped
          rwa [stopped] at above
        · rename_i higher reached
          rw [reached] at above
          split
          · rename_i makes
            exact above.trans (isExtendedBy_makeDirectory makes)
          · exact settled above
      · exact settled isExtendedBy_refl

/-! Files -/

/-- A path leads to the same place when some file has been written. -/
theorem placeToWrite_put {text : String} {octets : List UInt8} {other : Path}
    (found : tree.placeToWrite text = .ok place) (free : tree.find? other ≠ some .directory) :
    (tree.put other (.file octets)).placeToWrite text = .ok place := by
  obtain ⟨directory, name, approached, noSlash, short, rfl, own⟩ := placeToWrite_eq_ok found
  refine placeToWrite_of_free (approach_put free approached) noSlash short ?_
  by_cases same : (directory.child name).resolved = other.resolved
  · rw [find?_congr same, find?_put_self free]
    nofun
  · rwa [find?_put_other same]

theorem free_of_placeToWrite {text : String} (found : tree.placeToWrite text = .ok place) :
    tree.find? place ≠ some .directory := by
  obtain ⟨directory, name, -, -, -, -, free⟩ := placeToWrite_eq_ok found
  exact free

theorem writeText_of_encoded {text : String} {octets : List UInt8}
    (found : tree.placeToWrite path.text = .ok place)
    (encoded : Text.Utf8.encode text = .ok octets) :
    tree.writeText path text = (.ok (), tree.put place (.file octets)) := by
  simp only [writeText, encoded, writeOctets, found]

/-- A text without octets leaves an empty file. -/
theorem writeText_of_fault {text : String} {fault : Text.Utf8.EncodingFault}
    (found : tree.placeToWrite path.text = .ok place)
    (refused : Text.Utf8.encode text = .error fault) :
    tree.writeText path text =
      (.error ⟨.unencodable fault, path.text⟩, tree.put place (.file [])) := by
  simp only [writeText, refused, writeOctets, found]

end Jianpu.FileTree
