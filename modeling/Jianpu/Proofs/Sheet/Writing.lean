import Jianpu.Proofs.Drawing.Elements
import Jianpu.Proofs.File.Names
import Jianpu.Proofs.Sheet.Cards
import Jianpu.Sheet.Export

/-! Sheets that are written to files: what stands in the files when all went well, and the two
failures that have no words. -/

set_option autoImplicit false

namespace Jianpu

open Number (Amount)

/-! Names of files -/

namespace Filename

open FileName (IsPlain)

/-- The characters of file names. -/
def IsLetter (c : Char) : Prop :=
  c.toNat < 0x80 ∧ c ≠ '/'

instance (c : Char) : Decidable (IsLetter c) :=
  inferInstanceAs (Decidable (_ ∧ _))

/-- A text of such characters. -/
def IsSpelled (text : String) : Prop :=
  ∀ c ∈ text.toList, IsLetter c

instance (text : String) : Decidable (IsSpelled text) :=
  List.decidableBAll _ text.toList

theorem IsSpelled.append {left right : String} (isLeft : IsSpelled left)
    (isRight : IsSpelled right) : IsSpelled (left ++ right) := by
  unfold IsSpelled
  rw [String.toList_append]
  exact List.forall_mem_append.mpr ⟨isLeft, isRight⟩

theorem isLetter_of_isSafe {c : Char} (safe : isSafe c = true) : IsLetter c := by
  have either {left right : Bool} (holds : (left || right) = true) : left = true ∨ right = true :=
    Bool.or_eq_true_iff.mp holds
  have upTo {first last : Bool} (within : (first && last) = true) : last = true :=
    (Bool.and_eq_true_iff.mp within).2
  have bound {last : UInt32} (low : last.toNat < 0x80) (upTo : c.val ≤ last) : c.toNat < 0x80 :=
    Nat.lt_of_le_of_lt (UInt32.le_iff_toNat_le.mp upTo) low
  constructor
  · rcases either safe with front | hyphen
    · rcases either front with alphanumeric | underscore
      · rcases either alphanumeric with alphabetic | digit
        · rcases either alphabetic with upper | lower
          · exact bound (by decide) (of_decide_eq_true upper).2
          · exact bound (by decide) (of_decide_eq_true (upTo lower))
        · exact bound (by decide) (of_decide_eq_true (upTo digit))
      · rw [eq_of_beq underscore]
        decide
    · rw [eq_of_beq hyphen]
      decide
  · rintro rfl
    revert safe
    decide

theorem mem_joinBlanks {characters : List Char} {afterBlank : Bool} :
    ∀ c ∈ joinBlanks afterBlank characters,
      c = '_' ∨ c ∈ characters ∧ Text.isBlank c = false := by
  induction characters generalizing afterBlank with
  | nil => nofun
  | cons first rest ih =>
      have others {afterBlank : Bool} : ∀ c ∈ joinBlanks afterBlank rest,
          c = '_' ∨ c ∈ first :: rest ∧ Text.isBlank c = false :=
        fun c member => (ih c member).imp_right (And.imp_left (List.mem_cons_of_mem first))
      unfold joinBlanks
      split
      · split
        · exact others
        · exact List.forall_mem_cons.mpr ⟨.inl rfl, others⟩
      · rename_i word
        exact List.forall_mem_cons.mpr
          ⟨.inr ⟨List.mem_cons_self, by simpa using word⟩, others⟩

theorem isSafe_of_mem_normalize {text : String} :
    ∀ c ∈ (normalize text).toList, isSafe c = true := by
  intro c member
  rw [normalize, String.toList_ofList] at member
  rcases mem_joinBlanks c member with rfl | ⟨kept, word⟩
  · decide
  · have passed := (List.mem_filter.mp kept).2
    rwa [word, Bool.or_false] at passed

theorem isSafe_of_mem_repr (n : Nat) : ∀ c ∈ n.repr.toList, isSafe c = true := by
  intro c member
  rw [Nat.toList_repr] at member
  simp [isSafe, Char.isAlphanum, Nat.isDigit_of_mem_toDigits (by decide) (by decide) member]

theorem isSafe_of_mem_append {left right : String} (isLeft : ∀ c ∈ left.toList, isSafe c = true)
    (isRight : ∀ c ∈ right.toList, isSafe c = true) :
    ∀ c ∈ (left ++ right).toList, isSafe c = true := by
  rw [String.toList_append]
  exact List.forall_mem_append.mpr ⟨isLeft, isRight⟩

/-- The name of a section's file is its number between a front and a suffix. -/
theorem exists_ofSection (title album : String) :
    ∃ front : String, (∀ c ∈ front.toList, isSafe c = true) ∧
      ∀ index : Nat, ofSection title album index = front ++ (index + 1).repr ++ ".svg" := by
  obtain ⟨stem, isStem, safe⟩ : ∃ stem : String,
      stem = (if (normalize title).isEmpty then "Untitled" else normalize title) ∧
        ∀ c ∈ stem.toList, isSafe c = true := by
    refine ⟨_, rfl, ?_⟩
    split
    · exact List.all_eq_true.mp (by decide : "Untitled".toList.all isSafe = true)
    · exact isSafe_of_mem_normalize
  have front := isSafe_of_mem_append safe
    (List.all_eq_true.mp (by decide : "_Section_".toList.all isSafe = true))
  by_cases noAlbum : (normalize album).isEmpty
  · refine ⟨_, front, fun index => ?_⟩
    rw [ofSection]
    simp only [noAlbum, ↓reduceIte, isStem]
    rfl
  · have isAlbum : ∀ c ∈ (normalize album).toList, isSafe c = true := isSafe_of_mem_normalize
    have albumFront := isSafe_of_mem_append isAlbum
      (List.all_eq_true.mp (by decide : "_".toList.all isSafe = true))
    refine ⟨_, isSafe_of_mem_append albumFront front, fun index => ?_⟩
    rw [ofSection]
    simp only [noAlbum, Bool.false_eq_true, ↓reduceIte, isStem, String.append_assoc]
    rfl

theorem isPlain_ofSection (title album : String) (index : Nat) :
    IsPlain (ofSection title album index) := by
  obtain ⟨front, safe, named⟩ := exists_ofSection title album
  have spelled : IsSpelled (front ++ (index + 1).repr) := fun c member =>
    isLetter_of_isSafe (isSafe_of_mem_append safe (isSafe_of_mem_repr _) c member)
  have all : IsSpelled (ofSection title album index) := by
    rw [named]
    exact spelled.append (by decide)
  have ending : (ofSection title album index).toList.getLast? = some 'g' := by
    rw [named, String.toList_append, List.getLast?_append]
    rfl
  refine ⟨fun c member => (all c member).1, fun slash => (all _ slash).2 rfl, ?_, ?_⟩
  · intro empty
    rw [empty] at ending
    cases ending
  · intro dots
    rw [dots] at ending
    exact absurd ending (by decide)

theorem ofSection_injective {title album : String} {first second : Nat}
    (same : ofSection title album first = ofSection title album second) : first = second := by
  obtain ⟨front, -, named⟩ := exists_ofSection title album
  rw [named, named, String.append_left_inj, String.append_right_inj] at same
  have digits := congrArg String.toList same
  rw [Nat.toList_repr, Nat.toList_repr] at digits
  have numbers := congrArg (fun digits => Nat.ofDigitChars 10 digits 0) digits
  simp only [Nat.ofDigitChars_ten_toDigits] at numbers
  exact Nat.succ.inj numbers

end Filename

/-! Failures -/

/-- A document with a number that cannot be drawn, or cannot be written in a drawing, because it
is beyond binary64. -/
def Document.IsBeyond (document : Document) : Prop :=
  ∀ drawings, Layout.drawings? document = some drawings →
    ∃ drawing ∈ drawings, ∃ number ∈ drawing.numbers, number.toFloat? = none

/-- How an engraver breaks down: it draws a page in no form of request, or one of its steps fails. -/
inductive Engraver.Breaks (engraver : Engraver) : EngravingError → Prop where
  | refusing {page : Nat} :
      (∀ request : PageRequest, request.page = page → engraver.draw? request = .ok none) →
      Breaks engraver .requestRefused
  | starting {failure : ToolFailure} :
      engraver.start = .error failure → Breaks engraver (.tool failure)
  | loading {text : String} {failure : ToolFailure} :
      engraver.loads text = .error failure → Breaks engraver (.tool failure)
  | counting {failure : ToolFailure} :
      engraver.pageCount = .error failure → Breaks engraver (.tool failure)
  | drawing {request : PageRequest} {failure : ToolFailure} :
      engraver.draw? request = .error failure → Breaks engraver (.tool failure)

theorem ToolFailure.message?_eq_none_iff {failure : ToolFailure} :
    failure.message? = none ↔ failure.isReported = false := by
  cases reported : failure.isReported <;> simp [message?, reported]

theorem Svg.render_eq_error {drawing : Drawing Amount} {fault : Number.Fault}
    (fails : render drawing = .error fault) :
    fault = .tooLarge ∧ ∃ number ∈ drawing.numbers, number.toFloat? = none := by
  rcases succeedsWhen_render drawing with ⟨-, svg, written⟩ | ⟨beyond, refused⟩
  · cases fails.symm.trans written
  · cases fails.symm.trans refused
    refine ⟨rfl, ?_⟩
    simpa using beyond

namespace Engraver

variable {engraver : Engraver}

theorem drawPage_eq_error {requests : List PageRequest} {error : EngravingError}
    (fails : (engraver.drawPage requests).1 = .error error) :
    (error = .requestRefused ∧ ∀ request ∈ requests, engraver.draw? request = .ok none) ∨
      engraver.Breaks error := by
  induction requests with
  | nil =>
      cases fails
      exact .inl ⟨rfl, nofun⟩
  | cons request requests ih =>
      unfold drawPage at fails
      cases drawn : engraver.draw? request with
      | error failure =>
          rw [drawn] at fails
          cases fails
          exact .inr (.drawing drawn)
      | ok svg =>
          rw [drawn] at fails
          cases svg with
          | some svg => cases fails
          | none =>
              rcases ih fails with ⟨refused, nothing⟩ | breaks
              · exact .inl ⟨refused, List.forall_mem_cons.mpr ⟨drawn, nothing⟩⟩
              · exact .inr breaks

/-- A page is asked for in all forms of request. -/
theorem breaks_of_drawPage {page : Nat} {error : EngravingError}
    (fails : (engraver.drawPage [.byName page, .byPosition page, .bare page]).1 = .error error) :
    engraver.Breaks error := by
  rcases drawPage_eq_error fails with ⟨rfl, nothing⟩ | breaks
  · refine .refusing (fun request asked => nothing request ?_ : ∀ request : PageRequest,
      request.page = page → engraver.draw? request = .ok none)
    cases request <;> simp_all [PageRequest.page]
  · exact breaks

theorem breaks_of_drawPages {pages : List Nat} {error : EngravingError}
    (fails : (engraver.drawPages pages).1 = .error error) : engraver.Breaks error := by
  induction pages with
  | nil => cases fails
  | cons page pages ih =>
      unfold drawPages at fails
      split at fails
      · rename_i other calls drawn
        cases fails
        exact breaks_of_drawPage (congrArg Prod.fst drawn)
      · rcases rest : engraver.drawPages pages with ⟨result, more⟩
        rw [rest] at fails ih
        cases result with
        | error other =>
            cases fails
            exact ih rfl
        | ok svgs => cases fails

theorem breaks_of_pages {error : EngravingError} (fails : engraver.pages.1 = .error error) :
    engraver.Breaks error := by
  unfold pages at fails
  cases counted : engraver.pageCount with
  | error failure =>
      rw [counted] at fails
      cases fails
      exact .counting counted
  | ok count =>
      rw [counted] at fails
      exact breaks_of_drawPages fails

/-- An engraving that fails without words breaks down at the engraver. -/
theorem breaks_of_engrave {score : List UInt8} {error : EngravingError}
    (fails : (engraver.engrave score).1 = .error error) (wordless : error.message? = none) :
    engraver.Breaks error := by
  unfold engrave at fails
  split at fails
  · rename_i refused
    cases fails
    exact .starting refused
  · cases fails
    cases wordless
  · dsimp only at fails
    split at fails
    · rename_i failure loads
      cases fails
      exact .loading loads
    · cases fails
      cases wordless
    · exact breaks_of_pages fails

theorem breaks_of_page {title : String} {score : List UInt8} {error : EngravingError}
    (fails : (engraver.page title score).1 = .error error) (wordless : error.message? = none) :
    engraver.Breaks error := by
  rcases engraved : engraver.engrave score with ⟨result, calls⟩
  unfold page at fails
  rw [engraved] at fails
  cases result with
  | ok svgs => cases fails
  | error other =>
      cases fails
      exact breaks_of_engrave (congrArg Prod.fst engraved) wordless

end Engraver

namespace Sheet

open FileName (IsPlain)

variable {tools : StaffTools} {document : Document}

theorem documentPage_eq_error {error : SheetError} (fails : documentPage document = .error error) :
    error = .number .tooLarge ∧ document.IsBeyond := by
  unfold documentPage at fails
  cases laidOut : Layout.drawings? document with
  | none =>
      rw [laidOut] at fails
      cases fails
      exact ⟨rfl, fun drawings drawn => by rw [laidOut] at drawn; cases drawn⟩
  | some drawings =>
      rw [laidOut] at fails
      unfold drawingPage at fails
      simp only [Option.elim, bind, Except.bind] at fails
      rcases Svg.succeedsWhen_mapM Svg.succeedsWhen_render drawings with
        ⟨-, svgs, rendered⟩ | ⟨beyond, refused⟩
      · rw [rendered] at fails
        cases fails
      · rw [refused] at fails
        cases fails
        refine ⟨rfl, fun others drawn => ?_⟩
        cases laidOut.symm.trans drawn
        simpa using beyond

/-! Files of sections -/

section Sections

variable {δ : Type} {tree after : FileTree δ} {directory : Path}

def sectionPath (document : Document) (directory : Path) (index : Nat) : Path :=
  directory.child (Filename.ofSection document.title document.album index)

theorem holds_sectionPath (isRooted : directory.IsRooted) {number other : Nat}
    (apart : number ≠ other) {text written : String}
    (holds : tree.Holds (sectionPath document directory number) text)
    (writes : tree.writeText (sectionPath document directory other) written = (.ok (), after)) :
    after.Holds (sectionPath document directory number) text :=
  holds.writeText isRooted (Filename.isPlain_ofSection ..) (Filename.isPlain_ofSection ..)
    (fun same => apart (Filename.ofSection_injective same)) writes

/-- Drawings that stand as SVG texts in the files of their numbers. -/
def AreWritten (tree : FileTree δ) (document : Document) (directory : Path) (index : Nat)
    (drawings : List (Drawing Amount)) : Prop :=
  ∀ entry ∈ drawings.zipIdx index, ∃ svg, Svg.render entry.1 = .ok svg ∧
    tree.Holds (sectionPath document directory entry.2) svg

/-- Sections that are all written stand in their files, and files of lower numbers stay. -/
theorem writeSections_eq_ok (isRooted : directory.IsRooted) {index : Nat}
    {drawings : List (Drawing Amount)} {written : List Path}
    (writes : writeSections document directory tree index drawings = (.ok written, after)) :
    written = (drawings.zipIdx index).map (fun entry => sectionPath document directory entry.2) ∧
      AreWritten after document directory index drawings ∧
      ∀ number < index, ∀ text, tree.Holds (sectionPath document directory number) text →
        after.Holds (sectionPath document directory number) text := by
  induction drawings generalizing tree index written with
  | nil =>
      cases writes
      exact ⟨rfl, nofun, fun _ _ _ holds => holds⟩
  | cons drawing drawings ih =>
      unfold writeSections at writes
      cases rendered : Svg.render drawing with
      | error fault =>
          rw [rendered] at writes
          cases writes
      | ok svg =>
          rw [rendered] at writes
          dsimp only at writes
          split at writes
          · cases writes
          · rename_i next wrote
            rcases rest : writeSections document directory next (index + 1) drawings with
              ⟨result, final⟩
            rw [rest] at writes
            cases result with
            | error error => cases writes
            | ok paths =>
                cases writes
                obtain ⟨named, areWritten, stays⟩ := ih rest
                refine ⟨by rw [named]; rfl, ?_, fun number lower text holds => ?_⟩
                · refine List.forall_mem_cons.mpr ⟨⟨svg, rendered, ?_⟩, areWritten⟩
                  exact stays index (Nat.lt_succ_self index) svg (FileTree.holds_of_writeText wrote)
                · exact stays number (Nat.lt_succ_of_lt lower) text
                    (holds_sectionPath isRooted (Nat.ne_of_lt lower) holds wrote)

theorem writeSections_eq_error {index : Nat} {drawings : List (Drawing Amount)}
    {error : SheetError}
    (fails : (writeSections document directory tree index drawings).1 = .error error)
    (wordless : error.message? = none) :
    error = .number .tooLarge ∧
      ∃ drawing ∈ drawings, ∃ number ∈ drawing.numbers, number.toFloat? = none := by
  induction drawings generalizing tree index with
  | nil => cases fails
  | cons drawing drawings ih =>
      unfold writeSections at fails
      cases rendered : Svg.render drawing with
      | error fault =>
          rw [rendered] at fails
          cases fails
          obtain ⟨rfl, beyond⟩ := Svg.render_eq_error rendered
          exact ⟨rfl, drawing, List.mem_cons_self, beyond⟩
      | ok svg =>
          rw [rendered] at fails
          dsimp only at fails
          split at fails
          · cases fails
            cases wordless
          · rename_i next wrote
            rcases rest : writeSections document directory next (index + 1) drawings with
              ⟨result, final⟩
            rw [rest] at fails
            cases result with
            | error other =>
                cases fails
                obtain ⟨same, later, member, beyond⟩ := ih (congrArg Prod.fst rest)
                exact ⟨same, later, List.mem_cons_of_mem _ member, beyond⟩
            | ok paths => cases fails

end Sections

/-! Exports -/

section Exports

variable {δ : Type} {tree : FileTree δ} {target : Path}

/-- What stands in the files after an export. -/
inductive Exported (tools : StaffTools) (document : Document) (tree : FileTree δ) (target : Path) :
    SheetFormat → List Path → Prop where
  | sections {drawings : List (Drawing Amount)} :
      Layout.drawings? document = some drawings → AreWritten tree document target 0 drawings →
      Exported tools document tree target .svg
        ((List.range document.blocks.length).map (sectionPath document target))
  | page {format : SheetFormat} {text : String} :
      (render tools format document).1 = .ok text → tree.Holds target text →
      Exported tools document tree target format [target]

/-- The ways in which an export fails without words. -/
inductive Fails (tools : StaffTools) (document : Document) : SheetError → Prop where
  | tooLarge : document.IsBeyond → Fails tools document (.number .tooLarge)
  | composing {failure : ToolFailure} :
      tools.compose document.staffScore = .error failure → failure.isReported = false →
      Fails tools document (.composing failure)
  | engraving {error : EngravingError} :
      tools.engraver.Breaks error → error.message? = none → Fails tools document (.engraving error)

theorem Fails.message?_eq_none {error : SheetError} (fails : Fails tools document error) :
    error.message? = none := by
  cases fails with
  | tooLarge => rfl
  | composing _ unreported => exact ToolFailure.message?_eq_none_iff.mpr unreported
  | engraving _ wordless => exact wordless

theorem fails_of_render {format : SheetFormat} {error : SheetError}
    (fails : (render tools format document).1 = .error error) (wordless : error.message? = none) :
    Fails tools document error := by
  cases format with
  | svg =>
      cases fails
      cases wordless
  | html =>
      obtain ⟨rfl, beyond⟩ := documentPage_eq_error fails
      exact .tooLarge beyond
  | staff =>
      cases composed : tools.compose document.staffScore with
      | error failure =>
          have refused : (render tools .staff document).1 = .error (.composing failure) := by
            simp only [render, composed]
          cases fails.symm.trans refused
          exact .composing composed (ToolFailure.message?_eq_none_iff.mp wordless)
      | ok octets =>
          rcases engraved : tools.engraver.page document.title octets with ⟨result, calls⟩
          have page : (render tools .staff document).1 = result.mapError .engraving := by
            simp only [render, composed, staffPage, engraved]
          rw [page] at fails
          cases result with
          | ok text => cases fails
          | error error =>
              cases fails
              exact .engraving (Engraver.breaks_of_page (congrArg Prod.fst engraved) wordless)
                wordless

theorem exportTo_page {format : SheetFormat} (isPage : format ≠ .svg) :
    (∃ error, (render tools format document).1 = .error error ∧
      (exportTo tools format document tree target).result = .error error) ∨
    ∃ text, (render tools format document).1 = .ok text ∧
      (exportTo tools format document tree target).result =
        ((tree.writeText target text).1.map fun () => [target]).mapError .file ∧
      (exportTo tools format document tree target).tree = (tree.writeText target text).2 := by
  cases page : (render tools format document).1 with
  | error error =>
      refine .inl ⟨error, rfl, ?_⟩
      cases format with
      | svg => exact absurd rfl isPage
      | html => simp only [exportTo, page]
      | staff => simp only [exportTo, page]
  | ok text =>
      refine .inr ⟨text, rfl, ?_⟩
      cases format with
      | svg => exact absurd rfl isPage
      | html => simp only [exportTo, page, and_self]
      | staff => simp only [exportTo, page, and_self]

theorem fails_of_exportTo {format : SheetFormat} {error : SheetError}
    (fails : (exportTo tools format document tree target).result = .error error)
    (wordless : error.message? = none) : Fails tools document error := by
  by_cases isPage : format ≠ .svg
  · rcases exportTo_page isPage with ⟨other, refused, result⟩ | ⟨text, -, result, -⟩
    · cases fails.symm.trans result
      exact fails_of_render refused wordless
    · rw [result] at fails
      cases written : (tree.writeText target text).1 with
      | ok done =>
          rw [written] at fails
          cases fails
      | error fault =>
          rw [written] at fails
          cases fails
          cases wordless
  · obtain rfl := not_not.mp isPage
    unfold exportTo at fails
    dsimp only at fails
    split at fails
    · cases fails
      cases wordless
    · rename_i made _
      split at fails
      · rename_i nothing
        cases fails
        exact .tooLarge fun drawings drawn => by rw [nothing] at drawn; cases drawn
      · rename_i drawings laidOut
        obtain ⟨rfl, beyond⟩ := writeSections_eq_error fails wordless
        refine .tooLarge fun others drawn => ?_
        cases laidOut.symm.trans drawn
        exact beyond

theorem exported_of_exportTo (isRooted : target.IsRooted) {format : SheetFormat}
    {written : List Path}
    (writes : (exportTo tools format document tree target).result = .ok written) :
    Exported tools document (exportTo tools format document tree target).tree target format
      written := by
  by_cases isPage : format ≠ .svg
  · rcases exportTo_page isPage with ⟨other, -, result⟩ | ⟨text, page, result, left⟩
    · cases writes.symm.trans result
    · rw [result] at writes
      rw [left]
      rcases outcome : tree.writeText target text with ⟨done, after⟩
      rw [outcome] at writes
      cases done with
      | error fault => cases writes
      | ok done =>
          cases writes
          exact .page page (FileTree.holds_of_writeText outcome)
  · obtain rfl := not_not.mp isPage
    rcases directories : tree.makeDirectories target with ⟨done, made⟩
    unfold exportTo at writes ⊢
    rw [directories] at writes ⊢
    cases done with
    | error fault => cases writes
    | ok done =>
        cases laidOut : Layout.drawings? document with
        | none =>
            rw [laidOut] at writes
            cases writes
        | some drawings =>
            rw [laidOut] at writes
            rcases outcome : writeSections document target made 0 drawings with ⟨result, after⟩
            dsimp only at writes ⊢
            rw [outcome] at writes ⊢
            obtain rfl : result = .ok written := writes
            obtain ⟨named, areWritten, -⟩ := writeSections_eq_ok isRooted outcome
            have numbers : written =
                (List.range document.blocks.length).map (sectionPath document target) := by
              rw [named, ← length_drawings? laidOut, List.range_eq_range',
                ← List.zipIdx_map_snd 0 drawings, List.map_map]
              rfl
            rw [numbers]
            exact .sections laidOut areWritten

end Exports

end Sheet

end Jianpu
