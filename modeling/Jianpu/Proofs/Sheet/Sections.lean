import Jianpu.Proofs.Drawing.Encoding
import Jianpu.Proofs.File.Elsewhere
import Jianpu.Proofs.Sheet.Writing

/-! One file for every section. The files of an export have names of their own made of safe
characters, stand right in the directory that was asked for, and are all that an export changes.
A section is not written where its SVG text cannot be made or has no octets. -/

set_option autoImplicit false

namespace Jianpu

open Number (Amount)

/-! Names -/

namespace Filename

theorem joinBlanks_of_solid {characters : List Char}
    (solid : ∀ c ∈ characters, Text.isBlank c = false) (afterBlank : Bool) :
    joinBlanks afterBlank characters = characters := by
  induction characters generalizing afterBlank with
  | nil => rfl
  | cons first rest ih =>
      obtain ⟨word, solid⟩ := List.forall_mem_cons.mp solid
      rw [joinBlanks, word, if_neg Bool.false_ne_true, ih solid]

theorem not_isBlank_of_isSafe {c : Char} (safe : isSafe c = true) : Text.isBlank c = false := by
  have table : ∀ n < 0x80, isSafe (Char.ofNat n) = true →
      Text.isBlank (Char.ofNat n) = false := by decide
  rw [← Char.ofNat_toNat c] at safe ⊢
  exact table c.toNat (isLetter_of_isSafe (by rwa [Char.ofNat_toNat] at safe)).1 safe

/-- A text of safe characters stays as it is. -/
theorem normalize_of_safe {text : String} (safe : ∀ c ∈ text.toList, isSafe c = true) :
    normalize text = text := by
  have solid : ∀ c ∈ text.toList, Text.isBlank c = false :=
    fun c member => not_isBlank_of_isSafe (safe c member)
  have kept : text.toList.filter (fun c => isSafe c || Text.isBlank c) = text.toList :=
    List.filter_eq_self.mpr fun c member => by rw [safe c member, Bool.true_or]
  simp only [normalize, Text.trimmed_of_solid solid, kept, joinBlanks_of_solid solid,
    String.ofList_toList]

theorem normalize_normalize (text : String) : normalize (normalize text) = normalize text :=
  normalize_of_safe isSafe_of_mem_normalize

theorem exists_stem (title album : String) (index : Nat) :
    ∃ stem : String, (∀ c ∈ stem.toList, isSafe c = true) ∧
      ofSection title album index = stem ++ ".svg" := by
  obtain ⟨front, safe, named⟩ := exists_ofSection title album
  exact ⟨_, isSafe_of_mem_append safe (isSafe_of_mem_repr (index + 1)), named index⟩

end Filename

namespace Sheet

variable {δ : Type} {tree after : FileTree δ} {document : Document} {directory : Path}

/-- A drawing whose SVG text can be made and has octets. -/
def IsLegible (drawing : Drawing Amount) : Prop :=
  ∃ svg octets, Svg.render drawing = .ok svg ∧ Text.Utf8.encode svg = .ok octets

/-- What keeps a drawing from being written at a path. -/
inductive Stops (path : Path) (drawing : Drawing Amount) : SheetError → Prop where
  | number {fault : Number.Fault} :
      Svg.render drawing = .error fault → Stops path drawing (.number fault)
  | encoding {svg : String} {fault : Text.Utf8.EncodingFault} :
      Svg.render drawing = .ok svg → Text.Utf8.encode svg = .error fault →
      Stops path drawing (.file ⟨.unencodable fault, path.text⟩)

theorem isLegible_or_stops (path : Path) (drawing : Drawing Amount) :
    IsLegible drawing ∨ ∃ error, Stops path drawing error := by
  cases rendered : Svg.render drawing with
  | error fault => exact .inr ⟨_, .number rendered⟩
  | ok svg =>
      cases encoded : Text.Utf8.encode svg with
      | error fault => exact .inr ⟨_, .encoding rendered encoded⟩
      | ok octets => exact .inl ⟨svg, octets, rendered, encoded⟩

/-- Drawings within binary64 are legible when no chord text holds a lone half. -/
theorem isLegible_of_whole {drawings : List (Drawing Amount)}
    (laidOut : Layout.drawings? document = some drawings)
    (whole : ∀ block ∈ document.blocks, block.kind = .chords →
      ∀ point ∈ Text.codePoints block.content, point.isHalf = false)
    (fits : ∀ drawing ∈ drawings, ∀ number ∈ drawing.numbers, number.toFloat?.isSome) :
    ∀ drawing ∈ drawings, IsLegible drawing := by
  intro drawing member
  obtain ⟨entry, among, drawn⟩ := Layout.mem_of_mapM laidOut member
  obtain ⟨block, isBlock, rfl⟩ := List.mem_map.mp among
  have isSaid := Layout.isSaid_meaning (α := Float) document.key_mem_catalog (whole block isBlock)
  obtain ⟨svg, rendered⟩ : ∃ svg, Svg.render drawing = .ok svg := by
    rcases Svg.succeedsWhen_render drawing with ⟨-, rendered⟩ | ⟨beyond, -⟩
    · exact rendered
    · exact absurd (fits drawing member) beyond
  obtain ⟨octets, encoded, -⟩ := Text.Utf8.decode_encode
    (Svg.isText_render (Layout.isStyled_draw? isSaid drawn) rendered)
  rw [String.ofList_toList] at encoded
  exact ⟨svg, octets, rendered, encoded⟩

/-! Writing -/

/-- True when the files of so many sections, from a number on, can be written. -/
def Accepts (tree : FileTree δ) (document : Document) (directory : Path) (index count : Nat) :
    Prop :=
  ∀ number, index ≤ number → number < index + count →
    tree.IsWritable (sectionPath document directory number)

theorem Accepts.put {index count : Nat} (accepts : Accepts tree document directory index (count + 1))
    {place : Path} (free : tree.find? place ≠ some .directory) (octets : List UInt8) :
    Accepts (tree.put place (.file octets)) document directory (index + 1) count := by
  intro number lower upper
  obtain ⟨there, found⟩ := accepts number (by omega) (by omega)
  exact ⟨there, FileTree.placeToWrite_put found free⟩

section Step

variable {index : Nat} {drawing : Drawing Amount} {drawings : List (Drawing Amount)} {place : Path}
  (found : tree.placeToWrite (sectionPath document directory index).text = .ok place)

include found

theorem writeSections_of_encoded {svg : String} {octets : List UInt8}
    (rendered : Svg.render drawing = .ok svg) (encoded : Text.Utf8.encode svg = .ok octets) :
    writeSections document directory tree index (drawing :: drawings) =
      let (result, final) :=
        writeSections document directory (tree.put place (.file octets)) (index + 1) drawings
      (result.map (sectionPath document directory index :: ·), final) := by
  have wrote := FileTree.writeText_of_encoded found encoded
  rw [sectionPath] at wrote
  simp only [writeSections, rendered, wrote]
  rfl

/-- A section that cannot be written leaves the files as they are, or its own file empty. -/
theorem writeSections_of_stops (rest : List (Drawing Amount)) {error : SheetError}
    (stops : Stops (sectionPath document directory index) drawing error) :
    ∃ final, writeSections document directory tree index (drawing :: rest) =
        (.error error, final) ∧ (final = tree ∨ final = tree.put place (.file [])) := by
  cases stops with
  | number refused =>
      refine ⟨tree, ?_, .inl rfl⟩
      simp only [writeSections, refused]
  | encoding rendered refused =>
      have wrote := FileTree.writeText_of_fault found refused
      rw [sectionPath] at wrote
      refine ⟨tree.put place (.file []), ?_, .inr rfl⟩
      simp only [writeSections, rendered, wrote]
      rfl

/-- Another section's file stays when the file of a section is written. -/
theorem holds_put (isRooted : directory.IsRooted) {number : Nat} (apart : number ≠ index)
    {text : String} (holds : tree.Holds (sectionPath document directory number) text)
    (octets : List UInt8) :
    (tree.put place (.file octets)).Holds (sectionPath document directory number) text :=
  holds.put (FileTree.free_of_placeToWrite found)
    (FileTree.not_leadsTo_of_ne isRooted isRooted (Filename.isPlain_ofSection ..)
      (Filename.isPlain_ofSection ..) (fun same => apart (Filename.ofSection_injective same)) found)

end Step

/-- Sections that can all be written are written. -/
theorem writeSections_of_legible {index : Nat} {drawings : List (Drawing Amount)}
    (accepts : Accepts tree document directory index drawings.length)
    (legible : ∀ drawing ∈ drawings, IsLegible drawing) :
    ∃ paths final, writeSections document directory tree index drawings = (.ok paths, final) := by
  induction drawings generalizing tree index with
  | nil => exact ⟨[], tree, rfl⟩
  | cons drawing drawings ih =>
      obtain ⟨⟨svg, octets, rendered, encoded⟩, legible⟩ := List.forall_mem_cons.mp legible
      obtain ⟨place, found⟩ := accepts index (Nat.le_refl _) (by simp)
      have rest : Accepts tree document directory index (drawings.length + 1) := accepts
      obtain ⟨paths, final, written⟩ :=
        ih (rest.put (FileTree.free_of_placeToWrite found) octets) legible
      refine ⟨sectionPath document directory index :: paths, final, ?_⟩
      rw [writeSections_of_encoded found rendered encoded, written]
      rfl

/-- Where a section cannot be written, those before it stand in their files. -/
theorem writeSections_before_stop (isRooted : directory.IsRooted) {index : Nat}
    {before : List (Drawing Amount)} {drawing : Drawing Amount} {error : SheetError}
    (accepts : Accepts tree document directory index (before.length + 1))
    (legible : ∀ earlier ∈ before, IsLegible earlier) (rest : List (Drawing Amount))
    (stops : Stops (sectionPath document directory (index + before.length)) drawing error) :
    ∃ final, writeSections document directory tree index (before ++ drawing :: rest) =
        (.error error, final) ∧
      AreWritten final document directory index before ∧
      ∀ number < index, ∀ text, tree.Holds (sectionPath document directory number) text →
        final.Holds (sectionPath document directory number) text := by
  induction before generalizing tree index with
  | nil =>
      obtain ⟨place, found⟩ := accepts index (Nat.le_refl _) (by simp)
      obtain ⟨final, stopped, left⟩ := writeSections_of_stops found rest stops
      refine ⟨final, stopped, nofun, ?_⟩
      intro number lower text holds
      rcases left with rfl | rfl
      · exact holds
      · exact holds_put found isRooted (Nat.ne_of_lt lower) holds []
  | cons earlier before ih =>
      obtain ⟨⟨svg, octets, rendered, encoded⟩, legible⟩ := List.forall_mem_cons.mp legible
      obtain ⟨place, found⟩ := accepts index (Nat.le_refl _) (by simp)
      rw [List.length_cons, Nat.add_comm before.length, ← Nat.add_assoc] at stops
      obtain ⟨final, stopped, areWritten, stays⟩ :=
        ih (accepts.put (FileTree.free_of_placeToWrite found) octets) legible stops
      have written := FileTree.writeText_of_encoded found encoded
      refine ⟨final, ?_, ?_, fun number lower text holds => ?_⟩
      · rw [List.cons_append, writeSections_of_encoded found rendered encoded, stopped]
        rfl
      · refine List.forall_mem_cons.mpr ⟨⟨svg, rendered, ?_⟩, areWritten⟩
        exact stays index (Nat.lt_succ_self index) svg (FileTree.holds_of_writeText written)
      · exact stays number (Nat.lt_succ_of_lt lower) text
          (holds_put found isRooted (Nat.ne_of_lt lower) holds octets)

/-- Only the places of the sections are written to. -/
theorem find?_writeSections {index : Nat} {drawings : List (Drawing Amount)}
    (accepts : Accepts tree document directory index drawings.length) {place : Path}
    (apart : ∀ number, index ≤ number → number < index + drawings.length →
      ¬ tree.LeadsTo (sectionPath document directory number) place) :
    (writeSections document directory tree index drawings).2.find? place = tree.find? place := by
  induction drawings generalizing tree index with
  | nil => rfl
  | cons drawing drawings ih =>
      obtain ⟨there, found⟩ := accepts index (Nat.le_refl _) (by simp)
      have free := FileTree.free_of_placeToWrite found
      have elsewhere : place.resolved ≠ there.resolved :=
        fun same => apart index (Nat.le_refl _) (by simp) ⟨there, found, same⟩
      rcases isLegible_or_stops (sectionPath document directory index) drawing with
        ⟨svg, octets, rendered, encoded⟩ | ⟨error, stops⟩
      · have rest : Accepts tree document directory index (drawings.length + 1) := accepts
        have step := ih (rest.put free octets) (by
          intro number lower upper
          rintro ⟨own, ownFound, same⟩
          obtain ⟨kept, keptFound⟩ := accepts number (by omega) (by simp; omega)
          cases ownFound.symm.trans (FileTree.placeToWrite_put keptFound free)
          exact apart number (by omega) (by simp; omega) ⟨own, keptFound, same⟩)
        rw [writeSections_of_encoded found rendered encoded]
        exact step.trans (FileTree.find?_put_other elsewhere)
      · obtain ⟨final, stopped, left⟩ := writeSections_of_stops found drawings stops
        rw [stopped]
        rcases left with rfl | rfl
        · rfl
        · exact FileTree.find?_put_other elsewhere

/-! Exports -/

section Exports

variable {made : FileTree δ} {target : Path} {tools : StaffTools}
  (makes : tree.makeDirectories target = (.ok (), made))

include makes

theorem exportTo_of_drawings {drawings : List (Drawing Amount)}
    (laidOut : Layout.drawings? document = some drawings) :
    exportTo tools .svg document tree target =
      ⟨(writeSections document target made 0 drawings).1,
        (writeSections document target made 0 drawings).2, none⟩ := by
  simp only [exportTo, makes, laidOut]

theorem exportTo_of_tooLarge (tooLarge : Layout.drawings? document = none) :
    exportTo tools .svg document tree target = ⟨.error (.number .tooLarge), made, none⟩ := by
  simp only [exportTo, makes, tooLarge]

theorem isExtendedBy_of_makeDirectories : tree.IsExtendedBy made := by
  have extended := FileTree.isExtendedBy_makeWithin tree target target.parts.length
  rwa [show tree.makeWithin target target.parts.length = (.ok (), made) from makes] at extended

/-- An export changes the places of sections and makes directories. -/
theorem find?_exportTo (accepts : Accepts made document target 0 document.blocks.length)
    (place : Path) :
    let after := (exportTo tools .svg document tree target).tree
    after.find? place = tree.find? place ∨
      tree.find? place = none ∧ after.find? place = some .directory ∨
      ∃ index < document.blocks.length,
        made.LeadsTo (sectionPath document target index) place := by
  intro after
  by_cases own : ∃ index < document.blocks.length,
      made.LeadsTo (sectionPath document target index) place
  · exact .inr (.inr own)
  · have kept : after.find? place = made.find? place := by
      cases laidOut : Layout.drawings? document with
      | none => simp only [after, exportTo_of_tooLarge makes laidOut]
      | some drawings =>
          rw [← length_drawings? laidOut] at accepts own
          simp only [after, exportTo_of_drawings makes laidOut]
          refine find?_writeSections accepts fun number _ upper leads => own ⟨number, ?_, leads⟩
          omega
    rcases isExtendedBy_of_makeDirectories makes place with same | ⟨absent, new⟩
    · exact .inl (kept.trans same)
    · exact .inr (.inl ⟨absent, kept.trans new⟩)

section Drawings

variable (isRooted : target.IsRooted) {drawings : List (Drawing Amount)}
  (laidOut : Layout.drawings? document = some drawings)
  (accepts : Accepts made document target 0 document.blocks.length)

include isRooted laidOut accepts

theorem exportTo_of_legible (legible : ∀ drawing ∈ drawings, IsLegible drawing) :
    (exportTo tools .svg document tree target).result =
        .ok ((List.range document.blocks.length).map (sectionPath document target)) ∧
      AreWritten (exportTo tools .svg document tree target).tree document target 0 drawings := by
  rw [← length_drawings? laidOut] at accepts
  obtain ⟨paths, final, written⟩ := writeSections_of_legible accepts legible
  obtain ⟨named, areWritten, -⟩ := writeSections_eq_ok isRooted written
  rw [exportTo_of_drawings makes laidOut, written]
  refine ⟨?_, areWritten⟩
  rw [named, ← length_drawings? laidOut, List.range_eq_range', ← List.zipIdx_map_snd 0 drawings,
    List.map_map]
  rfl

theorem exportTo_before_stop {before rest : List (Drawing Amount)} {drawing : Drawing Amount}
    (split : drawings = before ++ drawing :: rest)
    (legible : ∀ earlier ∈ before, IsLegible earlier) (illegible : ¬ IsLegible drawing) :
    ∃ error, Stops (sectionPath document target before.length) drawing error ∧
      (exportTo tools .svg document tree target).result = .error error ∧
      AreWritten (exportTo tools .svg document tree target).tree document target 0 before := by
  rw [← length_drawings? laidOut] at accepts
  subst split
  obtain ⟨error, stops⟩ := (isLegible_or_stops (sectionPath document target before.length)
    drawing).resolve_left illegible
  have front : Accepts made document target 0 (before.length + 1) :=
    fun number lower upper => accepts number lower (by simp; omega)
  obtain ⟨final, stopped, areWritten, -⟩ := writeSections_before_stop isRooted front
    legible rest (by rwa [Nat.zero_add])
  rw [exportTo_of_drawings makes laidOut, stopped]
  exact ⟨error, stops, rfl, areWritten⟩

end Drawings

end Exports

/-- An export of sections as SVG files writes one file for each section right in the directory
and nothing else, as far as the file system takes the names, and gives the paths in the order of
the sections. The names are different and, but for their suffix, made of ASCII letters, digits,
hyphens and underscores. It stops at the first section whose SVG text cannot be made or has no
octets, with the sections before it written; within binary64 and without lone halves in chord
text there is none. -/
theorem sections_stand_in_own_files (tools : StaffTools) (document : Document)
    (tree made : FileTree δ) (target : Path) (isRooted : target.IsRooted)
    (makes : tree.makeDirectories target = (.ok (), made))
    (accepts : Accepts made document target 0 document.blocks.length) :
    let outcome := exportTo tools .svg document tree target
    let nameOf : Nat → String := fun index =>
      Filename.ofSection document.title document.album index
    (∀ index, ∃ stem : String, (∀ c ∈ stem.toList, Filename.isSafe c = true) ∧
      nameOf index = stem ++ ".svg") ∧
    (∀ index other, nameOf index = nameOf other → index = other) ∧
    (∀ text, Filename.normalize (Filename.normalize text) = Filename.normalize text ∧
      ∀ c ∈ (Filename.normalize text).toList, Filename.isSafe c = true) ∧
    (∀ place, outcome.tree.find? place = tree.find? place ∨
      tree.find? place = none ∧ outcome.tree.find? place = some .directory ∨
      ∃ index < document.blocks.length, made.LeadsTo (target.child (nameOf index)) place) ∧
    (∀ drawings, Layout.drawings? document = some drawings →
      ((∀ drawing ∈ drawings, IsLegible drawing) →
        outcome.result = .ok ((List.range document.blocks.length).map fun index =>
          target.child (nameOf index)) ∧
        drawings.length = document.blocks.length ∧
        ∀ entry ∈ drawings.zipIdx, ∃ svg, Svg.render entry.1 = .ok svg ∧
          outcome.tree.Holds (target.child (nameOf entry.2)) svg) ∧
      (∀ before drawing rest, drawings = before ++ drawing :: rest →
        (∀ earlier ∈ before, IsLegible earlier) → ¬ IsLegible drawing →
        ∃ error, Stops (target.child (nameOf before.length)) drawing error ∧
          outcome.result = .error error ∧
          ∀ entry ∈ before.zipIdx, ∃ svg, Svg.render entry.1 = .ok svg ∧
            outcome.tree.Holds (target.child (nameOf entry.2)) svg) ∧
      ((∀ block ∈ document.blocks, block.kind = .chords →
          ∀ point ∈ Text.codePoints block.content, point.isHalf = false) →
        (∀ drawing ∈ drawings, ∀ number ∈ drawing.numbers, number.toFloat?.isSome) →
        ∀ drawing ∈ drawings, IsLegible drawing)) ∧
    (Layout.drawings? document = none → outcome.result = .error (.number .tooLarge)) := by
  intro outcome nameOf
  refine ⟨Filename.exists_stem _ _, fun index other => Filename.ofSection_injective, ?_,
    find?_exportTo makes accepts, ?_, ?_⟩
  · intro text
    exact ⟨Filename.normalize_normalize text, Filename.isSafe_of_mem_normalize⟩
  · intro drawings laidOut
    refine ⟨fun legible => ?_, ?_, isLegible_of_whole laidOut⟩
    · obtain ⟨paths, areWritten⟩ := exportTo_of_legible makes isRooted laidOut accepts legible
      exact ⟨paths, length_drawings? laidOut, areWritten⟩
    · intro before drawing rest split legible illegible
      exact exportTo_before_stop makes isRooted laidOut accepts split legible illegible
  · intro tooLarge
    simp only [outcome, exportTo_of_tooLarge makes tooLarge]

/-- Chords over a melody, under a title that holds a slash and blanks. -/
def songbookPage : Document :=
  { title := "Am Brunnen / vor dem Tore", blocks := [⟨.chords, "C"⟩, ⟨.melody, "5 1'."⟩] }

theorem sections_stand_in_own_files_of_songbook :
    let tools : StaffTools := .absent
    let tree : FileTree Unit := ⟨[]⟩
    let target : Path := ⟨"", ["out"]⟩
    ∃ made drawings, target.IsRooted ∧ tree.makeDirectories target = (.ok (), made) ∧
      Accepts made songbookPage target 0 2 ∧ Layout.drawings? songbookPage = some drawings ∧
      (exportTo tools .svg songbookPage tree target).result =
        .ok [⟨"", ["out", "Am_Brunnen_vor_dem_Tore_Section_1.svg"]⟩,
          ⟨"", ["out", "Am_Brunnen_vor_dem_Tore_Section_2.svg"]⟩] ∧
      ∀ entry ∈ drawings.zipIdx, ∃ svg, Svg.render entry.1 = .ok svg ∧
        (exportTo tools .svg songbookPage tree target).tree.Holds
          (sectionPath songbookPage target entry.2) svg := by
  intro tools tree target
  let made : FileTree Unit := (tree.makeDirectories target).2
  have ready : (tree.makeDirectories target).1.toOption = some () ∧
      ((List.range 2).all fun number =>
        (made.placeToWrite (sectionPath songbookPage target number).text).toOption.isSome) = true := by
    decide +kernel
  obtain ⟨drawings, laidOut⟩ : ∃ drawings, Layout.drawings? songbookPage = some drawings :=
    Option.isSome_iff_exists.mp (by decide +kernel)
  have makes : tree.makeDirectories target = (.ok (), made) := by
    rcases began : tree.makeDirectories target with ⟨result, left⟩
    have succeeded := ready.1
    rw [began] at succeeded
    cases result with
    | error fault => cases succeeded
    | ok done => simp only [made, began]
  have accepts : Accepts made songbookPage target 0 2 := by
    intro number _ upper
    have found := List.all_eq_true.mp ready.2 number (List.mem_range.mpr (by omega))
    obtain ⟨place, same⟩ := Option.isSome_iff_exists.mp found
    refine ⟨place, ?_⟩
    cases leads : made.placeToWrite (sectionPath songbookPage target number).text with
    | error fault =>
        rw [leads] at same
        cases same
    | ok there =>
        rw [leads] at same
        exact congrArg Except.ok (Option.some.inj same)
  have isRooted : target.IsRooted := List.mem_cons_self
  have whole : ∀ block ∈ songbookPage.blocks, block.kind = .chords →
      ∀ point ∈ Text.codePoints block.content, point.isHalf = false := by
    decide
  have measured : ((Layout.drawings? songbookPage).all fun drawings => drawings.all fun drawing =>
      drawing.numbers.all fun number => number.toFloat?.isSome) = true := by
    decide +kernel
  rw [laidOut, Option.all_some] at measured
  have fits : ∀ drawing ∈ drawings, ∀ number ∈ drawing.numbers, number.toFloat?.isSome = true :=
    fun drawing member => List.all_eq_true.mp (List.all_eq_true.mp measured drawing member)
  obtain ⟨-, -, -, -, drawn, -⟩ :=
    sections_stand_in_own_files tools songbookPage tree made target isRooted makes accepts
  obtain ⟨written, -, legible⟩ := drawn drawings laidOut
  obtain ⟨paths, -, holds⟩ := written (legible whole fits)
  refine ⟨made, drawings, isRooted, makes, accepts, laidOut, ?_, holds⟩
  rw [paths]
  refine congrArg Except.ok ?_
  decide +kernel

/-- A distance of four hundred digits keeps the file of a section from being written. -/
theorem wide_section_is_not_written :
    ¬ ∀ (tools : StaffTools) (document : Document) (target : Path),
      ∃ paths, (exportTo tools .svg document (⟨[]⟩ : FileTree Unit) target).result = .ok paths := by
  intro all
  let tools : StaffTools := .absent
  let document : Document := { blocks := [⟨.chords, "C"⟩], settings := ⟨.whole (10 ^ 400), 20⟩ }
  have refused : (exportTo tools .svg document (⟨[]⟩ : FileTree Unit)
      ⟨"", ["out"]⟩).result.toOption.isNone = true := by
    decide +kernel
  obtain ⟨paths, written⟩ := all tools document ⟨"", ["out"]⟩
  rw [written] at refused
  cases refused

end Sheet

end Jianpu
