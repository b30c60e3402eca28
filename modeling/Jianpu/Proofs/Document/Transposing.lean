import Jianpu.Proofs.Drawing.Labels
import Jianpu.Proofs.Timeline.Tones

/-! Documents in another key. A new key moves all notes by one interval and renames them;
when they sound, and where they and their ornaments are drawn, stays as it was. -/

set_option autoImplicit false

namespace Jianpu

open Number (Amount Coordinate Divisible Scalar)
open Notation (Note Section)

namespace Layout

variable {δ : Type} (key : Key) (shift : Int)

section Notes

variable {α : Type} [Scalar α]

theorem ornaments_inKey (note : Note δ) (centre : Point α) (next : Option (Note δ × Point α)) :
    ornaments (note.inKey key shift) centre (next.map (Prod.map (Note.inKey key shift) id)) =
      ornaments note centre next := by
  cases next <;> rfl

theorem canvas_ofNotes_inKey (notes : List (Note δ)) (settings : Settings α) :
    (ofNotes (notes.map (Note.inKey key shift)) settings).canvas =
      (ofNotes notes settings).canvas :=
  canvasOf_map (f := Note.inKey key shift) (fun _ => rfl) notes settings

theorem seen_ofNotes_inKey {β : Type} (seen : List (Primitive α) → β)
    (append : ∀ {front otherFront back otherBack}, seen front = seen otherFront →
      seen back = seen otherBack → seen (front ++ back) = seen (otherFront ++ otherBack))
    (labels : ∀ label other (centre : Point α),
      seen (labelGlyphs label centre) = seen (labelGlyphs other centre))
    (notes : List (Note δ)) (settings : Settings α) :
    seen (ofNotes (notes.map (Note.inKey key shift)) settings).primitives =
      seen (ofNotes notes settings).primitives := by
  rw [ofNotes, placed_map (f := Note.inKey key shift) fun _ => rfl]
  exact seen_primitivesOf_map append labels (ornaments_inKey key shift) (placed notes settings)

theorem unlabelled_inKey (settings : Settings α) (entry : Section δ) :
    (ofSection settings (entry.inKey key shift)).unlabelled =
      (ofSection settings entry).unlabelled := by
  cases entry with
  | chords glyphs source => rfl
  | melody meaning source =>
      simp only [Section.inKey, ofSection, Notation.Melody.notes_inKey]
      refine congrArg₂ Drawing.mk (canvas_ofNotes_inKey key shift meaning.notes settings)
        (seen_ofNotes_inKey key shift _ ?_ ?_ meaning.notes settings)
      · intro front otherFront back otherBack fronts backs
        rw [List.filterMap_append, List.filterMap_append, fronts, backs]
      · intro label other centre
        rw [unlabelled_labelGlyphs, unlabelled_labelGlyphs]

end Notes

theorem draw?_inKey (settings : Settings Amount) (entry : Section δ) :
    (draw? settings (entry.inKey key shift)).map Drawing.unlabelled =
      (draw? settings entry).map Drawing.unlabelled := by
  cases entry with
  | chords glyphs source => rfl
  | melody meaning source =>
      have painted := seen_ofNotes_inKey key shift completeUnlabelled?
        (fun {front otherFront back otherBack} fronts backs => by
          rw [completeUnlabelled?_append, completeUnlabelled?_append, fronts, backs])
        (fun label other centre => by
          rw [completeUnlabelled?_labelGlyphs, completeUnlabelled?_labelGlyphs])
        meaning.notes (asCoordinates settings)
      simp only [draw?, Section.inKey, ofSection, Notation.Melody.notes_inKey,
        unlabelled_complete?, canvas_ofNotes_inKey, painted]

theorem map_mapM {β γ ε : Type} (f : β → Option γ) (g : γ → ε) (items : List β) :
    (items.mapM f).map (List.map g) = items.mapM fun item => (f item).map g := by
  induction items with
  | nil => rfl
  | cons item items ih =>
      rw [List.mapM_cons, List.mapM_cons, ← ih]
      cases f item with
      | none => rfl
      | some first => cases items.mapM f <;> rfl

theorem drawings?_setKey (document : Document) (first second : Int) :
    (drawings? (document.setKey second)).map (List.map Drawing.unlabelled) =
      (drawings? (document.setKey first)).map (List.map Drawing.unlabelled) := by
  rw [drawings?, drawings?, map_mapM, map_mapM, Document.sections_setKey document first second,
    List.mapM_map]
  exact congrArg (List.mapM · _) (funext fun entry => draw?_inKey _ _ document.settings entry)

end Layout

/-- Whatever the two keys, in the catalog or not, a document means the same in one as in the other but
for the pitches, which all differ by the distance of the tonics, and the labels. Its tones keep their
times, and its drawings differ in nothing but what labels say, in the numbers of the program as in any
others. -/
theorem Document.transposes {α : Type} [Scalar α] [Divisible α] (document : Document)
    (first second : Int) (tempo : α) (settings : Settings α) :
    let key := Key.atOrDefault second
    let shift := key.tonicClass - (Key.atOrDefault first).tonicClass
    let inFirst := document.setKey first
    let inSecond := document.setKey second
    let before := inFirst.sections (α := α)
    let after := inSecond.sections (α := α)
    after = before.map (Section.inKey key shift) ∧
      Timeline.schedule after tempo =
        (Timeline.schedule before tempo).map (List.map (Tone.transposed shift)) ∧
      after.map (fun entry => (Layout.ofSection settings entry).unlabelled) =
        before.map (fun entry => (Layout.ofSection settings entry).unlabelled) ∧
      (Layout.drawings? inSecond).map (List.map Drawing.unlabelled) =
        (Layout.drawings? inFirst).map (List.map Drawing.unlabelled) := by
  intro key shift inFirst inSecond before after
  have renamed : after = before.map (Section.inKey key shift) :=
    document.sections_setKey first second
  refine ⟨renamed, ?_, ?_, Layout.drawings?_setKey document first second⟩
  · rw [renamed, Timeline.schedule_inKey]
  · rw [renamed, List.map_map]
    exact List.map_congr_left fun entry _ => Layout.unlabelled_inKey key shift settings entry

end Jianpu
