import Jianpu.CommandLine.Machine
import Jianpu.Document.File
import Jianpu.Proofs.File.Rewrite

/-! What replies say. A command that is over has told its lines, or has reported an error, or
has met a fault that it has no words for; lines are told until one cannot be shown. -/

set_option autoImplicit false

namespace Jianpu

namespace CommandLine

/-- A line that has octets once control sequences are dropped. -/
def IsShowable (text : String) : Prop :=
  Text.Utf8.encodingFault? (Text.ControlSequence.drop text) = none

instance (text : String) : Decidable (IsShowable text) :=
  inferInstanceAs (Decidable (_ = _))

/-- Lines as they are shown. -/
def shownLines (lines : List String) : String :=
  String.join (lines.map fun line => Text.ControlSequence.drop line ++ "\n")

theorem tree_line (reply : Reply) (text : String) : (reply.line text).tree = reply.tree := by
  unfold Reply.line
  dsimp only
  split
  · rfl
  · split <;> rfl

namespace Reply

/-- A command that went well and told lines behind what was shown before. -/
structure Tells (reply : Reply) (before : String) (lines : List String) : Prop where
  status : reply.status = 0
  escape : reply.escape = none
  output : reply.output = before ++ shownLines lines
  errors : reply.errors = ""

/-- A command that reported an error, and told nothing behind what was shown before. -/
structure Reports (reply : Reply) (before message : String) : Prop where
  status : reply.status = 1
  escape : reply.escape = none
  output : reply.output = before
  errors : reply.errors =
    Text.portable (Text.ControlSequence.drop ("  ERROR: " ++ message)) ++ "\n"

/-- A reply so far: it has shown something, and nothing has gone wrong. -/
structure IsQuiet (reply : Reply) (before : String) : Prop where
  status : reply.status = 0
  escape : reply.escape = none
  output : reply.output = before
  errors : reply.errors = ""

/-- A command that was broken off while an answer was awaited. -/
structure IsAborted (reply : Reply) (before : String) : Prop where
  status : reply.status = 1
  escape : reply.escape = none
  output : reply.output = before
  errors : reply.errors = "Aborted!\n"
  brokenOff : reply.brokenOff = true

/-- A command that escapes on exactly these faults, and otherwise has ended in one of the ways
that are provided for. -/
structure EndsBy (reply : Reply) (breaks : Escape → Prop) (ends : Prop) : Prop where
  escapes : ∀ escape, reply.escape = some escape ↔ breaks escape
  ends : reply.escape = none → ends

variable {reply : Reply} {before : String}

theorem endsBy_of_cases {breaks : Escape → Prop} {ends : Prop}
    (escapes : ∀ escape, breaks escape → reply.escape = some escape)
    (quiet : ends → reply.escape = none) (cases : (∃ escape, breaks escape) ∨ ends) :
    reply.EndsBy breaks ends where
  escapes escape := by
    refine ⟨fun broken => ?_, escapes escape⟩
    rcases cases with ⟨other, breaks⟩ | ended
    · cases broken.symm.trans (escapes other breaks)
      exact breaks
    · cases broken.symm.trans (quiet ended)
  ends unbroken := by
    rcases cases with ⟨other, breaks⟩ | ended
    · cases unbroken.symm.trans (escapes other breaks)
    · exact ended

theorem IsQuiet.isAborted (quiet : reply.IsQuiet before) : reply.aborted.IsAborted before where
  status := rfl
  escape := quiet.escape
  output := quiet.output
  errors := by
    have plain : Text.portable (Text.ControlSequence.drop "Aborted!") = "Aborted!" := by
      decide +kernel
    show reply.errors ++ Text.portable (Text.ControlSequence.drop "Aborted!") ++ "\n" = _
    rw [quiet.errors, plain]
    rfl
  brokenOff := rfl

theorem IsQuiet.reports (quiet : reply.IsQuiet before) (message : String) :
    (reply.fail message).Reports before message where
  status := rfl
  escape := quiet.escape
  output := quiet.output
  errors := by
    show reply.errors ++ _ ++ "\n" = _
    rw [quiet.errors, String.empty_append]

theorem IsQuiet.line (quiet : reply.IsQuiet before) {text : String} (showable : IsShowable text) :
    (reply.line text).IsQuiet (before ++ shownLines [text]) := by
  have told : reply.line text =
      { reply with output := reply.output ++ Text.ControlSequence.drop text ++ "\n" } := by
    rw [Reply.line, quiet.escape]
    simp only [Option.isSome_none, Bool.false_eq_true, ↓reduceIte]
    rw [show Text.Utf8.encodingFault? (Text.ControlSequence.drop text) = none from showable]
    rfl
  rw [told]
  refine ⟨quiet.status, quiet.escape, ?_, quiet.errors⟩
  simp [quiet.output, shownLines, String.append_assoc]

theorem line_of_escape (isOver : reply.escape.isSome) (text : String) : reply.line text = reply := by
  simp only [Reply.line, isOver, ↓reduceIte]

theorem foldl_line_of_escape (isOver : reply.escape.isSome) (lines : List String) :
    lines.foldl Reply.line reply = reply := by
  induction lines with
  | nil => rfl
  | cons line lines ih => rw [List.foldl_cons, line_of_escape isOver, ih]

theorem IsQuiet.escape_line (quiet : reply.IsQuiet before) {text : String}
    (hidden : ¬ IsShowable text) : (reply.line text).escape = some .unshowable := by
  have fault := Option.ne_none_iff_isSome.mp hidden
  rw [Reply.line, quiet.escape]
  simp only [Option.isSome_none, Bool.false_eq_true, ↓reduceIte, fault]
  rfl

theorem IsQuiet.tells (quiet : reply.IsQuiet before) {lines : List String}
    (showable : ∀ line ∈ lines, IsShowable line) :
    (lines.foldl Reply.line reply).Tells before lines := by
  induction lines generalizing reply before with
  | nil => exact ⟨quiet.status, quiet.escape, by simp [quiet.output, shownLines], quiet.errors⟩
  | cons line lines ih =>
      obtain ⟨first, others⟩ := List.forall_mem_cons.mp showable
      obtain ⟨status, escape, output, errors⟩ := ih (quiet.line first) others
      refine ⟨status, escape, ?_, errors⟩
      rw [List.foldl_cons, output]
      simp [shownLines, String.append_assoc]

theorem IsQuiet.tells_line (quiet : reply.IsQuiet before) {line : String}
    (showable : IsShowable line) : (reply.line line).Tells before [line] := by
  obtain ⟨status, escape, output, errors⟩ := quiet.line showable
  exact ⟨status, escape, output, errors⟩

/-- The first line that cannot be shown ends the command. -/
theorem IsQuiet.escape_foldl_line (quiet : reply.IsQuiet before) {lines : List String}
    {line : String} (member : line ∈ lines) (hidden : ¬ IsShowable line) :
    (lines.foldl Reply.line reply).escape = some .unshowable := by
  induction lines generalizing reply before with
  | nil => cases member
  | cons first lines ih =>
      rw [List.foldl_cons]
      by_cases showable : IsShowable first
      · rcases List.mem_cons.mp member with rfl | later
        · exact absurd showable hidden
        · exact ih (quiet.line showable) later
      · have broken := quiet.escape_line showable
        rw [foldl_line_of_escape (by rw [broken]; rfl), broken]

theorem tree_foldl_line (reply : Reply) (lines : List String) :
    (lines.foldl Reply.line reply).tree = reply.tree := by
  induction lines generalizing reply with
  | nil => rfl
  | cons line lines ih => rw [List.foldl_cons, ih, tree_line]

theorem isQuiet_of_tree (tree : FileTree Database) : ({ tree } : Reply).IsQuiet "" :=
  ⟨rfl, rfl, rfl, rfl⟩

theorem IsQuiet.failOn (quiet : reply.IsQuiet before) {error : FileError}
    (system : error.fault.isSystem = true) (lead : String) :
    (reply.failOn lead error).Reports before (lead ++ error.message) := by
  rw [Reply.failOn, if_pos system]
  exact quiet.reports _

theorem tree_failOn (reply : Reply) (lead : String) (error : FileError) :
    (reply.failOn lead error).tree = reply.tree := by
  unfold failOn
  split <;> rfl

end Reply

end CommandLine

/-! Documents -/

namespace Document

variable {δ : Type} [Illegible δ] {reach : Envelope.Reach} {tree : FileTree δ} {path : Path}
  {overrides : Overrides}

/-- A file whose stored form is nested too deeply. -/
def IsTooDeep (reach : Envelope.Reach) (tree : FileTree δ) (path : Path) : Prop :=
  ∃ text, tree.readText path = .ok text ∧ isStoredForm path = true ∧
    Envelope.decode? reach text = none

theorem readFile_of_readText_error {error : FileError} (fails : tree.readText path = .error error) :
    readFile reach tree path overrides = .error (.file error) := by
  rw [readFile, fails]

theorem readFile_of_isTooDeep (deep : IsTooDeep reach tree path) :
    readFile reach tree path overrides = .error .tooDeep := by
  obtain ⟨text, reads, form, nothing⟩ := deep
  rw [readFile, reads]
  simp only [ofFileText?, form, ↓reduceIte, nothing, Option.map_none]

/-- A file is read as a document unless it cannot be read or is nested too deeply. -/
theorem readFile_cases (reach : Envelope.Reach) (tree : FileTree δ) (path : Path)
    (overrides : Overrides) :
    (∃ error, tree.readText path = .error error) ∨ IsTooDeep reach tree path ∨
      ∃ document, readFile reach tree path overrides = .ok document := by
  cases reads : tree.readText path with
  | error error => exact .inl ⟨error, rfl⟩
  | ok text =>
      right
      cases held : ofFileText? reach path text with
      | some document =>
          refine .inr ⟨document.overridden overrides, ?_⟩
          rw [readFile, reads]
          simp only [held]
      | none =>
          left
          refine ⟨text, reads, ?_⟩
          unfold ofFileText? at held
          split at held
          · rename_i form
            exact ⟨form, by simpa using held⟩
          · cases held

end Document

end Jianpu
