import Jianpu.Proofs.Drawing.Beams
import Jianpu.Proofs.Number.Exact
import Mathlib.Tactic.Linarith
import Mathlib.Tactic.Positivity
import Mathlib.Tactic.Ring

/-! What a canvas has room for. The centres of notes keep a margin on all four sides, and what
is drawn around a centre stays within the margin, except for the dashes of long notes: nothing
is added to the width for them. -/

set_option autoImplicit false

namespace Jianpu

open Number (Scalar)
open Notation (Melody Note Section)

/-! Places of primitives -/

/-- Where a primitive begins and ends from left to right. Of a glyph only the reference point is
known. -/
def Primitive.columns : Primitive Rat → List Rat
  | .glyph g => [g.x]
  | .line x1 _ x2 _ _ => [x1, x2]
  | .dot x _ radius => [x - radius, x + radius]

/-- Where a primitive begins and ends from top to bottom. -/
def Primitive.rows : Primitive Rat → List Rat
  | .glyph g => [g.y]
  | .line _ y1 _ y2 _ => [y1, y2]
  | .dot _ y radius => [y - radius, y + radius]

/-- A primitive lies on a canvas when it passes none of the four edges. -/
structure Canvas.Holds (canvas : Canvas Rat) (primitive : Primitive Rat) : Prop where
  left : ∀ x ∈ primitive.columns, 0 ≤ x
  right : ∀ x ∈ primitive.columns, x ≤ canvas.width
  top : ∀ y ∈ primitive.rows, 0 ≤ y
  bottom : ∀ y ∈ primitive.rows, y ≤ canvas.height

namespace Layout

/-- A point on a canvas with the margins that notes keep: 20 at the sides, 30 above and below. -/
structure IsInside (canvas : Canvas Rat) (point : Point Rat) : Prop where
  left : 20 ≤ point.x
  right : point.x ≤ canvas.width - 20
  top : 30 ≤ point.y
  bottom : point.y ≤ canvas.height - 30

variable {δ : Type} {canvas : Canvas Rat} {settings : Settings Rat}

theorem pixels_rat (n : Int) : (pixels n : Rat) = n := rfl

/-! Centres -/

theorem highest_spec (first : Int) (rest : List Int) :
    highest first rest ∈ first :: rest ∧ ∀ step ∈ first :: rest, step ≤ highest first rest :=
  List.max?_eq_some_iff.mp List.max?_cons'

theorem lowest_spec (first : Int) (rest : List Int) :
    lowest first rest ∈ first :: rest ∧ ∀ step ∈ first :: rest, lowest first rest ≤ step :=
  List.min?_eq_some_iff.mp List.min?_cons'

theorem getElem?_placed {α : Type} [Scalar α] (notes : List (Note δ)) (settings : Settings α)
    (index : Nat) :
    (placed notes settings)[index]? = notes[index]?.map fun note =>
      (note, centre settings (canvasOf notes settings).baseline index note) := by
  simp only [placed, List.getElem?_map, List.getElem?_zipIdx, Option.map_map, Nat.zero_add]
  rfl

theorem canvasOf_cons (note : Note δ) (notes : List (Note δ)) (settings : Settings Rat) :
    let steps := notes.map (·.staffStep)
    let top := highest note.staffStep steps
    let bottom := lowest note.staffStep steps
    canvasOf (note :: notes) settings =
      { width := max 100 (notes.length * settings.spacing + 40)
        height := (top - bottom) * settings.scale + 60
        baseline := top * settings.scale + 30 } := by
  intro steps top bottom
  have thirty : (Scalar.decimal 30 0 : Rat) = 30 := by
    norm_num [Scalar.decimal]
  have length : ((steps.length : Int) : Rat) = notes.length := by
    simp [steps]
  have span : ((top - bottom : Int) : Rat) = top - bottom := by
    push_cast
    rfl
  simp only [canvasOf, List.map_cons, pixels_rat, Number.larger_rat, thirty]
  simp only [steps, top, bottom] at length span ⊢
  rw [length, span]
  norm_num

theorem isInside_centre {notes : List (Note δ)} (spacing : 0 ≤ settings.spacing)
    (scale : 0 ≤ settings.scale) {index : Nat} {note : Note δ} (found : notes[index]? = some note) :
    IsInside (canvasOf notes settings)
      (centre settings (canvasOf notes settings).baseline index note) := by
  obtain ⟨among, at_index⟩ := List.getElem?_eq_some_iff.mp found
  have member : note ∈ notes := at_index ▸ List.getElem_mem among
  cases notes with
  | nil => cases member
  | cons first rest =>
      have step : note.staffStep ∈ first.staffStep :: rest.map (·.staffStep) :=
        List.mem_map_of_mem (f := (·.staffStep)) member
      have top := mul_le_mul_of_nonneg_right
        (Int.cast_le (R := Rat).mpr ((highest_spec _ _).2 _ step)) scale
      have bottom := mul_le_mul_of_nonneg_right
        (Int.cast_le (R := Rat).mpr ((lowest_spec _ _).2 _ step)) scale
      have last : (index : Rat) ≤ rest.length := by
        exact_mod_cast Nat.le_of_lt_succ among
      have before : 0 ≤ index * settings.spacing := by
        positivity
      have after := mul_le_mul_of_nonneg_right last spacing
      have widest := le_max_right (100 : Rat) (rest.length * settings.spacing + 40)
      rw [canvasOf_cons]
      simp only [centre, pixels_rat, Int.cast_natCast, Int.cast_ofNat]
      constructor <;> dsimp only <;> linarith

/-! What is drawn around a centre -/

/-- What is near to notes lies on the canvas. -/
theorem holds_of_near {primitive : Primitive Rat}
    (columns : ∀ x ∈ primitive.columns, ∃ point, IsInside canvas point ∧ |x - point.x| ≤ 20)
    (rows : ∀ y ∈ primitive.rows, ∃ point, IsInside canvas point ∧ |y - point.y| ≤ 30) :
    canvas.Holds primitive := by
  constructor
  · intro x member
    obtain ⟨point, inside, near⟩ := columns x member
    linarith [inside.left, (abs_le.mp near).1]
  · intro x member
    obtain ⟨point, inside, near⟩ := columns x member
    linarith [inside.right, (abs_le.mp near).2]
  · intro y member
    obtain ⟨point, inside, near⟩ := rows y member
    linarith [inside.top, (abs_le.mp near).1]
  · intro y member
    obtain ⟨point, inside, near⟩ := rows y member
    linarith [inside.bottom, (abs_le.mp near).2]

theorem tierOffset?_le {tier : Nat} {offset : Int} (known : tierOffset? tier = some offset) :
    |(offset : Rat)| ≤ 30 := by
  unfold tierOffset? at known
  split at known
  · obtain rfl := Option.some.inj known
    norm_num
  · obtain rfl := Option.some.inj known
    norm_num
  · cases known

theorem holds_line {first second : Point Rat} (fromFirst : IsInside canvas first)
    (toSecond : IsInside canvas second) {left right offset : Rat} (start : |left| ≤ 20)
    (stop : |right| ≤ 20) (lower : |offset| ≤ 30) (width : Rat) :
    canvas.Holds
      (.line (first.x + left) (first.y + offset) (second.x + right) (second.y + offset) width) := by
  refine holds_of_near (List.forall_mem_cons.mpr ⟨⟨first, fromFirst, ?_⟩,
    List.forall_mem_singleton.mpr ⟨second, toSecond, ?_⟩⟩) (List.forall_mem_cons.mpr
      ⟨⟨first, fromFirst, ?_⟩, List.forall_mem_singleton.mpr ⟨second, toSecond, ?_⟩⟩)
  all_goals rwa [add_sub_cancel_left]

section Note

variable {point : Point Rat} (inside : IsInside canvas point)

include inside

theorem holds_labelGlyphs (label : String) :
    ∀ primitive ∈ labelGlyphs label point, canvas.Holds primitive := by
  intro primitive member
  rcases List.mem_cons.mp member with rfl | sign
  · exact holds_of_near (List.forall_mem_singleton.mpr ⟨point, inside, by norm_num⟩)
      (List.forall_mem_singleton.mpr ⟨point, inside, by norm_num⟩)
  · split at sign
    · cases sign
    · obtain rfl := List.mem_singleton.mp sign
      exact holds_of_near
        (List.forall_mem_singleton.mpr ⟨point, inside, by norm_num [pixels_rat]⟩)
        (List.forall_mem_singleton.mpr ⟨point, inside, by norm_num [pixels_rat]⟩)

theorem holds_dot : canvas.Holds (.dot (point.x + pixels 14) point.y (Scalar.decimal 25 1)) := by
  have radius : (Scalar.decimal 25 1 : Rat) = 5 / 2 := by
    norm_num [Scalar.decimal]
  rw [radius, pixels_rat]
  refine holds_of_near (List.forall_mem_cons.mpr ⟨⟨point, inside, ?_⟩,
    List.forall_mem_singleton.mpr ⟨point, inside, ?_⟩⟩) (List.forall_mem_cons.mpr
      ⟨⟨point, inside, ?_⟩, List.forall_mem_singleton.mpr ⟨point, inside, ?_⟩⟩)
  all_goals
    rw [abs_le]
    constructor <;> norm_num <;> linarith

theorem holds_tierLines {joined : Option (Point Rat)}
    (others : ∀ next, joined = some next → IsInside canvas next) (tier : Nat) :
    ∀ primitive ∈ tierLines point joined tier, canvas.Holds primitive := by
  intro primitive member
  unfold tierLines at member
  split at member
  · cases member
  · rename_i offset known
    have lower := tierOffset?_le known
    have stub : canvas.Holds (.line (point.x - pixels 8) (point.y + pixels offset)
        (point.x + pixels 8) (point.y + pixels offset) (pixels 2)) := by
      rw [sub_eq_add_neg]
      exact holds_line inside inside (by norm_num [pixels_rat]) (by norm_num [pixels_rat]) lower _
    split at member
    · exact List.mem_singleton.mp member ▸ stub
    · rename_i next
      rcases List.mem_cons.mp member with rfl | last
      · exact stub
      · obtain rfl := List.mem_singleton.mp last
        rw [sub_eq_add_neg]
        exact holds_line inside (others next rfl) (by norm_num [pixels_rat])
          (by norm_num [pixels_rat]) lower _

/-- Everything that is drawn for a note lies on the canvas, or it is a dash. -/
theorem holds_notePrimitives {note : Note δ} {next : Option (Note δ × Point Rat)}
    (others : ∀ entry, next = some entry → IsInside canvas entry.2) :
    ∀ primitive ∈ notePrimitives note point next,
      canvas.Holds primitive ∨ ∃ dash < note.dashes, primitive = dashGlyph point dash := by
  intro primitive member
  rcases List.mem_append.mp member with front | line
  · rcases List.mem_append.mp front with front | dash
    · rcases List.mem_append.mp front with label | dot
      · exact .inl (holds_labelGlyphs inside note.label primitive label)
      · split at dot
        · exact .inl (List.mem_singleton.mp dot ▸ holds_dot inside)
        · cases dot
    · obtain ⟨number, counted, rfl⟩ := List.mem_map.mp dash
      exact .inr ⟨number, List.mem_range.mp counted, rfl⟩
  · obtain ⟨tier, -, among⟩ := List.mem_flatMap.mp line
    refine .inl (holds_tierLines inside ?_ (tier + 1) primitive among)
    intro place joined
    obtain ⟨entry, follows, joins⟩ := Option.bind_eq_some_iff.mp joined
    dsimp only at joins
    split at joins
    · exact Option.some.inj joins ▸ others entry follows
    · cases joins

/-- A dash passes no edge but the right one, which a canvas of the same height would have to move. -/
theorem holds_dashGlyph_iff (dash : Nat) (width : Rat) :
    { canvas with width }.Holds (dashGlyph point dash) ↔ point.x + 24 + 20 * dash ≤ width := by
  obtain ⟨left, -, top, bottom⟩ := inside
  have count : (0 : Rat) ≤ dash := Nat.cast_nonneg dash
  have column : (dashGlyph point dash).columns = [point.x + 24 + 20 * dash] := by
    simp only [dashGlyph, Primitive.columns, pixels_rat]
    push_cast
    ring_nf
  have row : (dashGlyph point dash).rows = [point.y] := rfl
  constructor
  · intro held
    exact held.right _ (column ▸ List.mem_cons_self)
  · intro fits
    constructor <;> simp only [column, row, List.forall_mem_singleton] <;> linarith

end Note

/-! Drawings -/

theorem mem_primitivesOf {α : Type} [Scalar α] {entries : List (Note δ × Point α)}
    {primitive : Primitive α} (member : primitive ∈ primitivesOf entries) :
    ∃ index note place, entries[index]? = some (note, place) ∧
      primitive ∈ notePrimitives note place entries[index + 1]? := by
  induction entries with
  | nil => cases member
  | cons entry entries ih =>
      rcases List.mem_append.mp member with first | later
      · refine ⟨0, entry.1, entry.2, rfl, ?_⟩
        rw [List.getElem?_cons_succ, ← List.head?_eq_getElem?]
        exact first
      · obtain ⟨index, note, place, found, among⟩ := ih later
        exact ⟨index + 1, note, place, found, among⟩

theorem holds_ofChords (glyphs : List Text.CodePoint) (spacing : 0 ≤ settings.spacing) :
    ∀ primitive ∈ (ofChords glyphs settings).primitives,
      (ofChords glyphs settings).canvas.Holds primitive := by
  intro primitive member
  obtain ⟨⟨glyph, index⟩, among, rfl⟩ := List.mem_map.mp member
  have counted : index < glyphs.length := List.snd_lt_of_mem_zipIdx among
  have last : (index : Rat) + 1 ≤ glyphs.length := by
    exact_mod_cast counted
  have before : 0 ≤ index * settings.spacing := by
    positivity
  have after := mul_le_mul_of_nonneg_right last spacing
  have widest := le_max_right (100 : Rat) (glyphs.length * settings.spacing + 40)
  constructor <;>
    simp only [ofChords, Primitive.columns, Primitive.rows, List.forall_mem_singleton, pixels_rat,
      Number.larger_rat, Int.cast_natCast, Int.cast_ofNat] <;>
    linarith

/-- What of a melody does not lie on the canvas is a dash to the right of it. -/
theorem holds_ofNotes (notes : List (Note δ)) (spacing : 0 ≤ settings.spacing)
    (scale : 0 ≤ settings.scale) :
    let canvas := canvasOf notes settings
    ∀ primitive ∈ (ofNotes notes settings).primitives, canvas.Holds primitive ∨
      ∃ index note dash, notes[index]? = some note ∧ dash < note.dashes ∧
        primitive = dashGlyph (centre settings canvas.baseline index note) dash ∧
        ∀ width, { canvas with width }.Holds primitive ↔
          44 + index * settings.spacing + 20 * dash ≤ width := by
  intro canvas primitive member
  obtain ⟨index, note, place, found, among⟩ := mem_primitivesOf member
  have inside : ∀ {index note place}, (placed notes settings)[index]? = some (note, place) →
      notes[index]? = some note ∧ place = centre settings canvas.baseline index note ∧
        IsInside canvas place := by
    intro index note place found
    rw [getElem?_placed] at found
    obtain ⟨noted, there, same⟩ := Option.map_eq_some_iff.mp found
    obtain ⟨rfl, rfl⟩ := Prod.mk.inj same
    exact ⟨there, rfl, isInside_centre spacing scale there⟩
  obtain ⟨there, at_centre, keeps⟩ := inside found
  rcases holds_notePrimitives keeps (fun entry follows => (inside follows).2.2) primitive among
    with held | ⟨dash, counted, rfl⟩
  · exact .inl held
  · refine .inr ⟨index, note, dash, there, counted, by rw [at_centre], ?_⟩
    have column : place.x + 24 = 44 + index * settings.spacing := by
      rw [at_centre]
      simp only [centre, pixels_rat, Int.cast_natCast, Int.cast_ofNat]
      ring
    intro width
    rw [holds_dashGlyph_iff keeps, column]

/-- Whatever a block says and in whatever key, all that is drawn for it lies on its canvas, except
that a dash may stand too far to the right: the dash with number `dash` of the note with number
`index` has a place at `44 + index * spacing + 20 * dash`, and lies on a canvas of this height
exactly when that is no more than the width. -/
theorem canvas_holds_all_but_dashes [Scalar δ] (key : Key) (block : Block)
    (settings : Settings Rat) (spacing : 0 ≤ settings.spacing) (scale : 0 ≤ settings.scale) :
    let entry : Section δ := block.meaning key
    let drawing := ofSection settings entry
    ∀ primitive ∈ drawing.primitives, drawing.canvas.Holds primitive ∨
      ∃ melody index note dash, entry.melody? = some melody ∧ melody.notes[index]? = some note ∧
        dash < note.dashes ∧
        primitive = dashGlyph (centre settings drawing.canvas.baseline index note) dash ∧
        ∀ width, { drawing.canvas with width }.Holds primitive ↔
          44 + index * settings.spacing + 20 * dash ≤ width := by
  intro entry drawing primitive member
  cases meaning : entry with
  | melody melody source =>
      have notated : drawing = ofNotes melody.notes settings := by
        simp only [drawing, meaning, ofSection]
      rw [notated] at member ⊢
      rcases holds_ofNotes melody.notes spacing scale primitive member with held | dash
      · exact .inl held
      · obtain ⟨index, note, dash, found, counted, drawn, fits⟩ := dash
        exact .inr ⟨melody, index, note, dash, rfl, found, counted, drawn, fits⟩
  | chords glyphs source =>
      have lettered : drawing = ofChords glyphs settings := by
        simp only [drawing, meaning, ofSection]
      rw [lettered] at member ⊢
      exact .inl (holds_ofChords glyphs spacing primitive member)

/-- Nothing stands off the canvas of two notes that have no dashes. -/
theorem canvas_holds_two_short_notes :
    let entry : Section Rat := Block.meaning Key.cMajor ⟨.melody, "1 5_"⟩
    let drawing := ofSection (⟨20, 20⟩ : Settings Rat) entry
    drawing.primitives.length = 3 ∧
      ∀ primitive ∈ drawing.primitives, drawing.canvas.Holds primitive := by
  intro entry drawing
  have short : (entry.melody?.all fun melody => melody.notes.all (·.dashes = 0)) = true := by
    decide +kernel
  refine ⟨by decide +kernel, fun primitive member => ?_⟩
  rcases canvas_holds_all_but_dashes (δ := Rat) Key.cMajor ⟨.melody, "1 5_"⟩ ⟨20, 20⟩
    (by norm_num) (by norm_num) primitive member with held | dash
  · exact held
  · obtain ⟨melody, index, note, dash, written, found, counted, -⟩ := dash
    rw [written, Option.all_some, List.all_eq_true] at short
    have none_left := of_decide_eq_true (short note (List.mem_of_getElem? found))
    omega

/-- The canvas of one note of five beats ends before its last dash. -/
theorem dash_passes_canvas :
    let drawing := ofSection (⟨20, 20⟩ : Settings Rat)
      (Block.meaning (α := Rat) Key.cMajor ⟨.melody, "1----"⟩)
    ¬ ∀ primitive ∈ drawing.primitives, drawing.canvas.Holds primitive := by
  intro drawing all
  have measured : (drawing.primitives.all fun primitive =>
      primitive.columns.all fun x => decide (x ≤ drawing.canvas.width)) = false := by
    decide +kernel
  have fits : (drawing.primitives.all fun primitive =>
      primitive.columns.all fun x => decide (x ≤ drawing.canvas.width)) = true := by
    refine List.all_eq_true.mpr fun primitive member => List.all_eq_true.mpr fun x column => ?_
    exact decide_eq_true ((all primitive member).right x column)
  cases measured.symm.trans fits

end Layout

end Jianpu
