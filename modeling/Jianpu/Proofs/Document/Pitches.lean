import Jianpu.Proofs.Notation.Appending
import Jianpu.Proofs.Notation.Rekeying
import Jianpu.Proofs.Session.Transcript
import Jianpu.Proofs.Sheet.Agreement

/-! The pitches of a document's notes. In another key all of them move by the distance of the
tonics. A transcript adds the pitches that counted, as far as the key it is spelled in has them,
if the document is read in that key. -/

set_option autoImplicit false

namespace Jianpu

open Number (Amount Scalar)
open Capture (Filter)
open Notation (Melody Note Section eventsOf notesOf)

variable {α : Type} [Scalar α]

/-- The pitches of the notes of a block in a key. -/
def Block.pitches (α : Type) [Scalar α] (key : Key) (block : Block) : List Int :=
  ((block.meaning (α := α) key).melody?.toList.flatMap Melody.notes).map (·.pitch)

/-- The pitches of the notes of a document, in their order. -/
def Document.pitches (α : Type) [Scalar α] (document : Document) : List Int :=
  (document.sungNotes (α := α)).map (·.pitch)

/-- The pitches of a recording that have a degree in a key. -/
def Capture.sungPitches (logarithm : Pitch.Logarithm) (key : Key)
    (frames : List (Capture.Frame Amount)) : List Int :=
  ((Filter.standard.commits (Pitch.ofAmount logarithm) frames).map Prod.fst).filter fun pitch =>
    (Pitch.captureToken? key pitch).isSome

theorem Document.pitches_eq (document : Document) :
    document.pitches α = document.blocks.flatMap (Block.pitches α document.key) := by
  rw [pitches, sungNotes, sections]
  induction document.blocks with
  | nil => rfl
  | cons block blocks ih =>
      rw [List.map_cons, List.flatMap_cons, ← ih, Block.pitches, ← List.map_append]
      cases meant : (block.meaning (α := α) document.key).melody? with
      | none => rw [List.filterMap_cons_none meant]; rfl
      | some melody => rw [List.filterMap_cons_some meant]; simp

/-! Another key -/

theorem Block.pitches_inKey (first second : Key) (block : Block) :
    block.pitches α second =
      (block.pitches α first).map (· + (second.tonicClass - first.tonicClass)) := by
  rw [pitches, Block.meaning_inKey first second, Section.melody?_inKey, pitches]
  cases (block.meaning (α := α) first).melody? with
  | none => rfl
  | some melody => simp [Melody.notes_inKey, Note.inKey, Function.comp_def]

theorem flatMap_pitches_inKey (first second : Key) (blocks : List Block) :
    blocks.flatMap (Block.pitches α second) =
      (blocks.flatMap (Block.pitches α first)).map
        (· + (second.tonicClass - first.tonicClass)) := by
  rw [List.map_flatMap]
  exact List.flatMap_congr fun block _ => Block.pitches_inKey first second block

/-! Appended tokens -/

theorem Block.pitches_chords {key : Key} {block : Block} (chords : block.kind = .chords) :
    block.pitches α key = [] := by
  rw [pitches, meaning, chords]
  rfl

theorem Block.pitches_melody (key : Key) (content : String) :
    (Block.mk .melody content).pitches α key =
      (notesOf (eventsOf (α := α) key content.toList)).map (·.pitch) := by
  simp [pitches, meaning, Section.melody?, Melody.notes, Melody.ofText]

theorem Block.pitches_empty (key : Key) : (Block.mk .melody "").pitches α key = [] := by
  rw [pitches_melody, String.toList_empty, eventsOf, Notation.tokens_nil]
  rfl

/-- Tokens of pitches that are appended to a melody are read as these pitches. -/
theorem Block.pitches_foldl_appended (key : Key) (sung : List Int) (content : String) :
    (Block.mk .melody ((sung.filterMap (Pitch.captureToken? key)).foldl
        Document.appended content)).pitches α key =
      (Block.mk .melody content).pitches α key ++
        sung.filter fun pitch => (Pitch.captureToken? key pitch).isSome := by
  induction sung generalizing content with
  | nil => simp
  | cons pitch sung ih =>
      cases written : Pitch.captureToken? key pitch with
      | none => simp [written, ih]
      | some token =>
          obtain ⟨note, sounding, -, -, read⟩ :=
            Notation.eventsOf_appended (α := α) written content
          have added : (Block.mk .melody (Document.appended content token)).pitches α key =
              (Block.mk .melody content).pitches α key ++ [pitch] := by
            rw [pitches_melody, read, pitches_melody]
            simp [notesOf, sounding]
          rw [List.filterMap_cons_some written, List.foldl_cons, ih, added,
            List.filter_cons_of_pos (by simp [written]), List.append_assoc]
          rfl

theorem Block.pitches_extended (logarithm : Pitch.Logarithm) (key : Key)
    (frames : List (Capture.Frame Amount)) (content : String) :
    (Block.mk .melody
        (Document.extended content (Capture.transcript logarithm key frames))).pitches α key =
      (Block.mk .melody content).pitches α key ++ Capture.sungPitches logarithm key frames := by
  rw [← Document.foldl_appended Capture.isWord_of_transcript, Capture.transcript_eq,
    pitches_foldl_appended]
  rfl

/-- Behind the last melody there are no notes, so those of a transcript come last. -/
theorem pitches_of_extends {logarithm : Pitch.Logarithm} {key : Key}
    {frames : List (Capture.Frame Amount)} {blocks longer : List Block}
    (longerBlocks : Document.Extends (Capture.transcript logarithm key frames) blocks longer)
    (known : ∀ block ∈ blocks, block.kind = .melody ∨ block.kind = .chords) :
    longer.flatMap (Block.pitches α key) =
      blocks.flatMap (Block.pitches α key) ++ Capture.sungPitches logarithm key frames := by
  have silent : ∀ others : List Block, (∀ block ∈ others, block ∈ blocks) →
      (∀ block ∈ others, block.kind ≠ .melody) → others.flatMap (Block.pitches α key) = [] := by
    intro others among noMelody
    refine List.flatMap_eq_nil_iff.mpr fun block member => Block.pitches_chords ?_
    exact (known block (among block member)).resolve_left (noMelody block member)
  cases longerBlocks with
  | @last before after content others =>
      have rest := silent after (by simp +contextual) others
      simp only [List.flatMap_append, List.flatMap_cons, rest, Block.pitches_extended,
        List.append_nil, List.append_assoc]
  | added others =>
      have rest := silent blocks (fun _ member => member) others
      have alone := Block.pitches_extended (α := α) logarithm key frames ""
      rw [Document.extended_empty, Block.pitches_empty, List.nil_append] at alone
      simp only [List.flatMap_append, List.flatMap_cons, List.flatMap_nil, rest, alone,
        List.append_nil]

/-- A transcript spelled in one key and read in another: what was there moves by the distance from
the old key to the one it is read in, and what is new by the distance from the key it is spelled in. -/
theorem Document.pitches_of_extends (α : Type) [Scalar α] {document : Document} (again : Document)
    {logarithm : Pitch.Logarithm} {key : Key} {frames : List (Capture.Frame Amount)}
    (longerBlocks : Extends (Capture.transcript logarithm key frames) document.blocks
      again.blocks)
    (known : ∀ block ∈ document.blocks, block.kind = .melody ∨ block.kind = .chords) :
    again.pitches α =
      (document.pitches α).map (· + (again.key.tonicClass - document.key.tonicClass)) ++
        (Capture.sungPitches logarithm key frames).map
          (· + (again.key.tonicClass - key.tonicClass)) := by
  rw [pitches_eq, flatMap_pitches_inKey key again.key, Jianpu.pitches_of_extends longerBlocks known,
    List.map_append, pitches_eq, flatMap_pitches_inKey document.key key, List.map_map]
  congr 1
  refine List.map_congr_left fun pitch _ => ?_
  simp only [Function.comp_apply]
  omega

/-- Pitches that are moved stay as they are where there are none, or by no distance. -/
theorem map_add_eq_self_iff {pitches : List Int} {distance : Int} :
    pitches.map (· + distance) = pitches ↔ pitches = [] ∨ distance = 0 := by
  constructor
  · intro same
    cases pitches with
    | nil => exact .inl rfl
    | cons pitch pitches =>
        have first : pitch + distance = pitch := (List.cons.inj same).1
        exact .inr (by omega)
  · rintro (rfl | rfl) <;> simp

theorem moved_append_eq_iff {old new : List Int} {oldDistance newDistance : Int} :
    old.map (· + oldDistance) ++ new.map (· + newDistance) = old ++ new ↔
      (old = [] ∨ oldDistance = 0) ∧ (new = [] ∨ newDistance = 0) := by
  rw [← map_add_eq_self_iff, ← map_add_eq_self_iff]
  constructor
  · intro same
    exact List.append_inj same (List.length_map _)
  · rintro ⟨stays, newStays⟩
    rw [stays, newStays]

end Jianpu
