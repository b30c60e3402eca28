import Jianpu.Proofs.Drawing.Labels
import Jianpu.Proofs.Notation.Grammar
import Mathlib.Data.List.Perm.Basic

/-! Beams. Under every note stands one stub for each of its tiers; where two notes that follow
each other have the same number of tiers, a connector joins the ends of their stubs. There are
no other lines. -/

set_option autoImplicit false

namespace Jianpu

open Number (Amount Coordinate Scalar)
open Notation (Melody Note)

/-! Lines of a drawing -/

deriving instance DecidableEq for Layout.Point

/-- A line from one point to another. -/
structure Stroke (α : Type) where
  start : Layout.Point α
  stop : Layout.Point α
  width : α
  deriving DecidableEq

def Stroke.map {α β : Type} (f : α → β) (stroke : Stroke α) : Stroke β :=
  ⟨⟨f stroke.start.x, f stroke.start.y⟩, ⟨f stroke.stop.x, f stroke.stop.y⟩, f stroke.width⟩

def Primitive.stroke? {α : Type} : Primitive α → Option (Stroke α)
  | .line x1 y1 x2 y2 strokeWidth => some ⟨⟨x1, y1⟩, ⟨x2, y2⟩, strokeWidth⟩
  | .glyph _ | .dot .. => none

/-- The lines of a drawing in the order they are painted. -/
def Drawing.strokes {α : Type} (drawing : Drawing α) : List (Stroke α) :=
  drawing.primitives.filterMap Primitive.stroke?

theorem Drawing.strokes_complete? {drawing : Drawing Coordinate} {complete : Drawing Amount}
    (found : drawing.complete? = some complete) :
    complete.strokes.map (Stroke.map some) = drawing.strokes := by
  obtain ⟨canvas, -, rest⟩ := Option.bind_eq_some_iff.mp found
  obtain ⟨painted, all, whole⟩ := Option.bind_eq_some_iff.mp rest
  obtain rfl := Option.some.inj whole
  rw [strokes, strokes, List.map_filterMap, List.filterMap_eq_flatMap_toList,
    List.filterMap_eq_flatMap_toList]
  refine Layout.flatMap_of_mapM ?_ all
  intro primitive image present
  cases primitive with
  | glyph g =>
      obtain ⟨x, -, present⟩ := Option.bind_eq_some_iff.mp present
      obtain ⟨y, -, present⟩ := Option.bind_eq_some_iff.mp present
      obtain rfl := Option.some.inj present
      rfl
  | line x1 y1 x2 y2 strokeWidth =>
      simp only [Primitive.complete?, Option.bind_eq_bind, Option.bind_eq_some_iff,
        Option.pure_def, Option.some.injEq] at present
      obtain ⟨_, rfl, _, rfl, _, rfl, _, rfl, _, rfl, rfl⟩ := present
      rfl
  | dot x y radius =>
      simp only [Primitive.complete?, Option.bind_eq_bind, Option.bind_eq_some_iff,
        Option.pure_def, Option.some.injEq] at present
      obtain ⟨_, -, _, -, _, -, rfl⟩ := present
      rfl

namespace Layout

variable {α δ : Type} [Scalar α]

/-! Stubs and connectors -/

/-- The tiers of a note's beams, counted from one. -/
def tiers (note : Note δ) : List Nat :=
  List.range' 1 note.beams

/-- The stub of a tier: 16 wide, and 6 lower than that of the tier before. -/
def stub (centre : Point α) (tier : Nat) : Stroke α :=
  let y := centre.y + pixels (8 + 6 * tier)
  ⟨⟨centre.x - pixels 8, y⟩, ⟨centre.x + pixels 8, y⟩, pixels 2⟩

/-- The connector of a tier, from the right end of a note's stub to the left end of the next one's. -/
def connector (centre next : Point α) (tier : Nat) : Stroke α :=
  ⟨(stub centre tier).stop, (stub next tier).start, pixels 2⟩

def stubs : Note δ × Point α → List (Stroke α)
  | (note, centre) => (tiers note).map (stub centre)

/-- The connectors between two notes: one for each tier when both have the same tiers. -/
def connectors : (Note δ × Point α) × (Note δ × Point α) → List (Stroke α)
  | ((note, centre), (next, place)) =>
    if next.beams = note.beams then (tiers note).map (connector centre place) else []

theorem tierOffset?_of_tier {note : Note δ} (atMostTwo : note.beams ≤ 2) :
    ∀ tier ∈ tiers note, tierOffset? tier = some (8 + 6 * tier : Nat) := by
  intro tier member
  obtain ⟨least, most⟩ := List.mem_range'_1.mp member
  obtain rfl | rfl : tier = 1 ∨ tier = 2 := by omega
  all_goals rfl

/-! The lines of one note -/

theorem strokes_labelGlyphs (label : String) (centre : Point α) :
    (labelGlyphs label centre).filterMap Primitive.stroke? = [] := by
  simp only [labelGlyphs]
  split <;> rfl

theorem strokes_tierLines (centre : Point α) (joined : Option (Point α)) {tier : Nat}
    (offset : tierOffset? tier = some (8 + 6 * tier : Nat)) :
    (tierLines centre joined tier).filterMap Primitive.stroke? =
      stub centre tier :: (joined.map (connector centre · tier)).toList := by
  unfold tierLines
  rw [offset]
  cases joined <;> rfl

/-- The place that a note's beams lead on to. -/
def joinedPlace? (note : Note δ) (next : Option (Note δ × Point α)) : Option (Point α) :=
  next.bind fun (following, place) => if beamJoins note following then some place else none

theorem strokes_notePrimitives {note : Note δ} (atMostTwo : note.beams ≤ 2) (centre : Point α)
    (next : Option (Note δ × Point α)) :
    (notePrimitives note centre next).filterMap Primitive.stroke? =
      (tiers note).flatMap fun tier =>
        stub centre tier :: ((joinedPlace? note next).map (connector centre · tier)).toList := by
  have dot : (if note.dotted then
      [Primitive.dot (centre.x + pixels 14) centre.y (Scalar.decimal 25 1)]
        else []).filterMap Primitive.stroke? = [] := by
    split <;> rfl
  have dashes : ((List.range note.dashes).map (dashGlyph centre)).filterMap
      Primitive.stroke? = [] := by
    rw [List.filterMap_map]
    exact List.filterMap_eq_nil_iff.mpr fun _ _ => rfl
  have counted : tiers note = (List.range note.beams).map (1 + ·) := List.range'_eq_map_range
  rw [notePrimitives, List.filterMap_append, List.filterMap_append, List.filterMap_append,
    strokes_labelGlyphs, dot, dashes, List.filterMap_flatMap, counted, List.flatMap_map]
  refine List.flatMap_congr fun tier member => ?_
  rw [Nat.add_comm]
  refine strokes_tierLines centre _ (tierOffset?_of_tier atMostTwo _ ?_)
  rw [counted]
  exact List.mem_map_of_mem member

/-- The connectors of a note that another one may follow. -/
theorem connectors_of_next (note : Note δ) (centre : Point α) (next : Option (Note δ × Point α)) :
    ((tiers note).flatMap fun tier =>
        ((joinedPlace? note next).map (connector centre · tier)).toList) =
      next.toList.flatMap fun following => connectors ((note, centre), following) := by
  cases next with
  | none => simp [joinedPlace?]
  | some following =>
      obtain ⟨following, place⟩ := following
      by_cases same : following.beams = note.beams
      · by_cases beamed : 1 ≤ note.beams
        · simp [joinedPlace?, beamJoins, connectors, same, beamed, ← List.map_eq_flatMap]
        · have none : tiers note = [] := by
            rw [tiers, Nat.lt_one_iff.mp (Nat.lt_of_not_le beamed)]
            rfl
          simp [connectors, none]
      · simp [joinedPlace?, beamJoins, connectors, same]

/-! The lines of all notes -/

theorem neighbours_cons {β : Type} (entry : β) (entries : List β) :
    (entry :: entries).zip entries =
      entries.head?.toList.map (entry, ·) ++ entries.zip entries.tail := by
  cases entries <;> rfl

theorem strokes_primitivesOf {entries : List (Note δ × Point α)}
    (atMostTwo : ∀ entry ∈ entries, entry.1.beams ≤ 2) :
    ((primitivesOf entries).filterMap Primitive.stroke?).Perm
      (entries.flatMap stubs ++ (entries.zip entries.tail).flatMap connectors) := by
  induction entries with
  | nil => rfl
  | cons entry entries ih =>
      obtain ⟨note, centre⟩ := entry
      have others := ih fun other member => atMostTwo other (List.mem_cons_of_mem _ member)
      have first : ((notePrimitives note centre entries.head?).filterMap Primitive.stroke?).Perm
          (stubs (note, centre) ++
            entries.head?.toList.flatMap fun following =>
              connectors ((note, centre), following)) := by
        have own : stubs (note, centre) = (tiers note).flatMap fun tier => [stub centre tier] :=
          List.map_eq_flatMap
        have few : note.beams ≤ 2 := atMostTwo _ List.mem_cons_self
        rw [strokes_notePrimitives few, ← connectors_of_next, own]
        exact (List.flatMap_append_perm (tiers note) (fun tier => [stub centre tier]) _).symm
      rw [primitivesOf, List.filterMap_append, List.tail_cons, neighbours_cons,
        List.flatMap_append, List.flatMap_map, List.flatMap_cons, List.append_assoc]
      refine (first.append others).trans ?_
      rw [List.append_assoc]
      exact List.Perm.append_left _ (List.perm_append_comm_assoc _ _ _)

end Layout

theorem Notation.beamsOf_le_two (modifiers : List Char) : beamsOf modifiers ≤ 2 := by
  unfold beamsOf
  split
  · exact Nat.le_refl 2
  · exact Nat.min_le_right _ 2

theorem Notation.beams_le_two {δ : Type} [Scalar δ] {key : Key} {text : String} {note : Note δ}
    (member : note ∈ (Melody.ofText key text).notes) : note.beams ≤ 2 := by
  obtain ⟨digit, modifiers, -, rfl⟩ := exists_noteOf member
  exact beamsOf_le_two modifiers

/-- Every tier of a melody's beams has its place. The lines of the melody's drawing are the stubs of
its notes, and the connectors of notes that follow each other with the same tiers; each connector
runs from the end of one stub to the start of another. -/
theorem Layout.beams_are_continuous {α δ : Type} [Scalar α] [Scalar δ] (key : Key) (text : String)
    (settings : Settings α) (chosen : Settings Amount) :
    let melody := Melody.ofText (α := δ) key text
    let entries := placed melody.notes settings
    let drawn := placed melody.notes (asCoordinates chosen)
    (∀ note ∈ melody.notes, ∀ tier ∈ tiers note, (tierOffset? tier).isSome) ∧
      (ofSection settings (.melody melody text)).strokes.Perm
        (entries.flatMap stubs ++ (entries.zip entries.tail).flatMap connectors) ∧
      ∀ drawing, draw? chosen (.melody melody text) = some drawing →
        (drawing.strokes.map (Stroke.map some)).Perm
          (drawn.flatMap stubs ++ (drawn.zip drawn.tail).flatMap connectors) := by
  intro melody entries drawn
  have placed_le : ∀ {β : Type} [Scalar β] (distances : Settings β),
      ∀ entry ∈ placed melody.notes distances, entry.1.beams ≤ 2 := by
    intro β _ distances entry member
    have noted : entry.1 ∈ melody.notes := by
      have placed := List.mem_map_of_mem (f := Prod.fst) member
      rwa [map_fst_placed] at placed
    exact Notation.beams_le_two noted
  constructor
  · intro note member tier inside
    rw [tierOffset?_of_tier (Notation.beams_le_two member) tier inside]
    rfl
  constructor
  · exact strokes_primitivesOf (placed_le settings)
  · intro drawing drawnSo
    rw [Drawing.strokes_complete? drawnSo]
    exact strokes_primitivesOf (placed_le (asCoordinates chosen))

/-- Two eighths have a stub each and one connector between them. -/
theorem Layout.beams_are_continuous_between_eighths :
    let melody := Melody.ofText (α := Rat) Key.cMajor "1_ | 2_"
    let drawing := ofSection (⟨20, 20⟩ : Settings Rat) (.melody melody "1_ | 2_")
    let first : Point Rat := ⟨20, 50⟩
    let second : Point Rat := ⟨40, 30⟩
    (∃ note ∈ melody.notes, ∃ tier ∈ tiers note, (tierOffset? tier).isSome) ∧
      drawing.strokes.Perm [stub first 1, stub second 1, connector first second 1] ∧
      ∃ drawing, draw? .standard (.melody melody "1_ | 2_") = some drawing ∧
        drawing.strokes.length = 3 := by
  intro melody drawing first second
  have law := beams_are_continuous (δ := Rat) Key.cMajor "1_ | 2_" (⟨20, 20⟩ : Settings Rat) .standard
  obtain ⟨offsets, lines, drawn⟩ := law
  have expected :
      let entries := placed melody.notes (⟨20, 20⟩ : Settings Rat)
      entries.flatMap stubs ++ (entries.zip entries.tail).flatMap connectors =
        [stub first 1, stub second 1, connector first second 1] := by
    decide +kernel
  have count :
      let entries := placed melody.notes (asCoordinates .standard)
      (entries.flatMap stubs ++ (entries.zip entries.tail).flatMap connectors).length = 3 := by
    decide +kernel
  have made : (draw? .standard (.melody melody "1_ | 2_")).isSome := by
    decide +kernel
  have cut : Notation.tokens "1_ | 2_".toList =
      [.note '1' ['_'], .bar ['|'], .note '2' ['_']] := by
    decide +kernel
  constructor
  · have member : Notation.noteOf Key.cMajor '1' ['_'] ∈ melody.notes := by
      simp only [melody, Melody.ofText, Melody.notes, Notation.eventsOf, cut]
      exact List.mem_cons_self
    exact ⟨_, member, 1, List.mem_cons_self, offsets _ member 1 List.mem_cons_self⟩
  constructor
  · rw [← expected]
    exact lines
  · obtain ⟨drawing, found⟩ := Option.isSome_iff_exists.mp made
    refine ⟨drawing, found, ?_⟩
    have same := (drawn drawing found).length_eq
    rw [List.length_map] at same
    exact same.trans count

end Jianpu
