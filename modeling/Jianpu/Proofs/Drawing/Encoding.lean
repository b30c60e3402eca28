import Jianpu.Proofs.Drawing.Elements
import Jianpu.Proofs.File.Rewrite
import Jianpu.Proofs.Notation.Grammar
import Jianpu.Proofs.Text.Spelling
import Jianpu.Proofs.Text.Utf8

/-! SVG texts that have octets. All that a drawing adds to what its glyphs say are characters of
ASCII, so the octets are missing for lone halves in chord text alone. -/

set_option autoImplicit false

namespace Jianpu

open Number (Amount)
open Text (CodePoint IsText SpellsItself)

/-! Texts -/

theorem isText_append {first second : String} (isFirst : IsText first.toList)
    (isSecond : IsText second.toList) : IsText (first ++ second).toList := by
  rw [String.toList_append]
  exact isFirst.append isSecond

theorem isText_of_plain {text : String} (plain : text.toList.all Text.isPlain = true) :
    IsText text.toList :=
  (Text.isFileText_of_plain plain).1

theorem isText_join {texts : List String} (each : ∀ text ∈ texts, IsText text.toList) :
    IsText (String.join texts).toList := by
  induction texts with
  | nil => exact isText_of_plain (by decide)
  | cons text texts ih =>
      obtain ⟨first, others⟩ := List.forall_mem_cons.mp each
      rw [String.join_cons]
      exact isText_append first (ih others)

section Entities

variable {entity : Char → List Char}
  (entities : ∀ c, entity c = [c] ∨ SpellsItself c ∧ (entity c).all Text.isPlain = true)

include entities

theorem isText_flatMap_spelling (c : Char) : IsText ((CodePoint.char c).spelling.flatMap entity) := by
  have first : IsText (CodePoint.char c).spelling := Text.spellsOnly_spelling rfl
  rcases CodePoint.spelling_char (c := c) with ⟨-, alone⟩ | ⟨other, marked⟩
  · rw [alone] at first ⊢
    rw [List.flatMap_singleton]
    rcases entities c with same | ⟨-, plain⟩
    · rwa [same]
    · exact (Text.isFileText_of_plain plain).1
  · have kept : entity c = [c] := (entities c).resolve_right fun written => other written.1
    have markKept : entity CodePoint.mark = [CodePoint.mark] :=
      (entities CodePoint.mark).resolve_right fun written => written.1.1 rfl
    rw [marked] at first ⊢
    rwa [List.flatMap_cons, List.flatMap_singleton, kept, markKept]

/-- A text stays one when characters that spell themselves are written as plain text. -/
theorem isText_flatMap {cs : List Char} (isText : IsText cs) : IsText (cs.flatMap entity) := by
  obtain ⟨points, whole, rfl⟩ := isText
  induction points with
  | nil => exact Text.spellsOnly_nil
  | cons point points ih =>
      obtain ⟨first, others⟩ := List.forall_mem_cons.mp whole
      rw [List.flatMap_cons, List.flatMap_append]
      cases point with
      | half index => cases first
      | char c => exact (isText_flatMap_spelling entities c).append (ih others)

end Entities

theorem isText_escape {text : String} (isText : IsText text.toList) :
    IsText (Text.Markup.escape text).toList := by
  rw [Text.Markup.escape, String.toList_ofList]
  refine isText_flatMap (fun c => ?_) isText
  unfold Text.Markup.escapeChar
  split
  · exact .inr ⟨Text.spellsItself_of_lt (by decide), by decide⟩
  · exact .inr ⟨Text.spellsItself_of_lt (by decide), by decide⟩
  · exact .inr ⟨Text.spellsItself_of_lt (by decide), by decide⟩
  · exact .inl rfl

namespace Svg

open FileTree (exists_of_bind_eq_ok)

theorem isText_amountText {amount : Amount} {text : String}
    (written : amountText amount = .ok text) : IsText text.toList := by
  rcases amountText_eq_ok written with isNumeral | name
  · refine Text.isText_of_spellsItself fun c member => Text.spellsItself_of_lt ?_
    rcases isNumeral c member with digit | mark
    · simp only [Char.isDigit, Bool.and_eq_true, decide_eq_true_eq] at digit
      have bound : c.toNat ≤ 57 := digit.2
      simp only [CodePoint.firstStandIn]
      omega
    · obtain rfl | rfl := List.mem_pair.mp mark <;> decide
  · exact isText_of_plain ((by decide : ∀ name ∈ ["nan", "-inf", "inf"],
      name.toList.all Text.isPlain = true) text name)

theorem isText_attr {name value : String} (plain : name.toList.all Text.isPlain = true)
    (isText : IsText value.toList) : IsText (attr name value).toList := by
  have space : IsText " ".toList := isText_of_plain (by decide)
  have equals : IsText "=\"".toList := isText_of_plain (by decide)
  have quote : IsText "\"".toList := isText_of_plain (by decide)
  exact isText_append (isText_append (isText_append (isText_append space (isText_of_plain plain))
    equals) isText) quote

/-- A tag is a text if the values of its attributes are. -/
theorem isText_tagWith {name : String} {attributes : List (String × String)}
    (plain : (name :: attributes.map Prod.fst).all (·.toList.all Text.isPlain) = true)
    (values : ∀ value ∈ attributes.map Prod.snd, IsText value.toList) :
    IsText (tagWith name attributes).toList := by
  obtain ⟨isName, names⟩ := List.forall_mem_cons.mp (List.all_eq_true.mp plain)
  refine isText_append (isText_of_plain isName) (isText_join fun text member => ?_)
  obtain ⟨entry, among, rfl⟩ := List.mem_map.mp member
  exact isText_attr (names _ (List.mem_map_of_mem among)) (values _ (List.mem_map_of_mem among))

theorem isText_ink : IsText ink.toList :=
  isText_of_plain (by decide)

theorem isText_style {g : Glyph Amount} {sayable : String → Prop}
    (isStyled : (Primitive.glyph g).IsStyled sayable) :
    ∀ text ∈ [g.anchor, ink, g.fontWeight, Text.Markup.escapeAttribute g.fontFamily,
      g.fontSize.text], IsText text.toList := by
  obtain ⟨-, anchor, weight, family, size⟩ := isStyled
  have anchors : ∀ anchor ∈ ["start", "middle"], anchor.toList.all Text.isPlain = true := by decide
  have weights : ∀ weight ∈ ["500", "bold", "normal"], weight.toList.all Text.isPlain = true := by
    decide
  have families : ∀ family ∈ ["sans-serif", "monospace"],
      (Text.Markup.escapeAttribute family).toList.all Text.isPlain = true := by decide
  simp only [List.forall_mem_cons, List.not_mem_nil, false_implies, implies_true, and_true]
  refine ⟨isText_of_plain (anchors _ anchor), isText_ink, isText_of_plain (weights _ weight),
    isText_of_plain (families _ family), ?_⟩
  rcases size with size | size
  · rw [size]
    exact isText_of_plain (by decide)
  · rw [size]
    exact isText_of_plain (by decide)

theorem isText_glyph {g : Glyph Amount}
    (isStyled : (Primitive.glyph g).IsStyled fun text => IsText text.toList) {text : String}
    (written : element (.glyph g) = .ok text) : IsText text.toList := by
  obtain ⟨x, written_x, written⟩ := exists_of_bind_eq_ok written
  obtain ⟨y, written_y, written⟩ := exists_of_bind_eq_ok written
  let attributes := ("x", x) :: ("y", y) :: (if g.centered then [("dy", "0.35em")] else []) ++
    [("text-anchor", g.anchor), ("fill", ink), ("font-weight", g.fontWeight),
      ("font-family", Text.Markup.escapeAttribute g.fontFamily), ("font-size", g.fontSize.text)]
  have parts : text = tagWith "<text" attributes ++ ">" ++ Text.Markup.escape g.text ++
      "</text>" := by
    cases written
    simp only [tagWith, attributes]
    cases g.centered <;> simp [String.append_assoc]
  have opening : IsText (tagWith "<text" attributes).toList := by
    refine isText_tagWith ?_ ?_
    · simp only [attributes, List.map_cons, List.map_append, List.map_nil]
      split <;> decide
    · simp only [attributes, List.map_cons, List.map_append]
      refine List.forall_mem_cons.mpr ⟨isText_amountText written_x, List.forall_mem_cons.mpr
        ⟨isText_amountText written_y, List.forall_mem_append.mpr ⟨?_, ?_⟩⟩⟩
      · split
        · exact List.forall_mem_singleton.mpr (isText_of_plain (by decide))
        · exact List.forall_mem_nil _
      · exact isText_style isStyled
  have bracket : IsText ">".toList := isText_of_plain (by decide)
  rw [parts]
  exact isText_append (isText_append (isText_append opening bracket) (isText_escape isStyled.1))
    (isText_of_plain (by decide))

theorem isText_line {x1 y1 x2 y2 width : Amount} {text : String}
    (written : element (.line x1 y1 x2 y2 width) = .ok text) : IsText text.toList := by
  obtain ⟨x1, written_x1, written⟩ := exists_of_bind_eq_ok written
  obtain ⟨y1, written_y1, written⟩ := exists_of_bind_eq_ok written
  obtain ⟨x2, written_x2, written⟩ := exists_of_bind_eq_ok written
  obtain ⟨y2, written_y2, written⟩ := exists_of_bind_eq_ok written
  obtain ⟨width, written_width, written⟩ := exists_of_bind_eq_ok written
  have parts : text = tagWith "<line" [("x1", x1), ("y1", y1), ("x2", x2), ("y2", y2),
      ("stroke", ink), ("stroke-width", width)] ++ " />" := by
    cases written
    simp [tagWith, String.append_assoc]
  rw [parts]
  refine isText_append (isText_tagWith ?_ ?_) (isText_of_plain (by decide))
  · simp only [List.map_cons, List.map_nil]
    decide
  simp only [List.map_cons, List.map_nil, List.forall_mem_cons, List.not_mem_nil, false_implies,
    implies_true, and_true]
  exact ⟨isText_amountText written_x1, isText_amountText written_y1,
    isText_amountText written_x2, isText_amountText written_y2, isText_ink,
    isText_amountText written_width⟩

theorem isText_dot {x y radius : Amount} {text : String}
    (written : element (.dot x y radius) = .ok text) : IsText text.toList := by
  obtain ⟨x, written_x, written⟩ := exists_of_bind_eq_ok written
  obtain ⟨y, written_y, written⟩ := exists_of_bind_eq_ok written
  obtain ⟨radius, written_radius, written⟩ := exists_of_bind_eq_ok written
  have parts : text = tagWith "<circle" [("cx", x), ("cy", y), ("r", radius),
      ("fill", ink)] ++ " />" := by
    cases written
    simp [tagWith, String.append_assoc]
  rw [parts]
  refine isText_append (isText_tagWith ?_ ?_) (isText_of_plain (by decide))
  · simp only [List.map_cons, List.map_nil]
    decide
  simp only [List.map_cons, List.map_nil, List.forall_mem_cons, List.not_mem_nil, false_implies,
    implies_true, and_true]
  exact ⟨isText_amountText written_x, isText_amountText written_y,
    isText_amountText written_radius, isText_ink⟩

theorem isText_element {primitive : Primitive Amount}
    (isStyled : primitive.IsStyled fun text => IsText text.toList) {text : String}
    (written : element primitive = .ok text) : IsText text.toList := by
  cases primitive with
  | glyph g => exact isText_glyph isStyled written
  | line x1 y1 x2 y2 width => exact isText_line written
  | dot x y radius => exact isText_dot written

theorem isText_elements {primitives : List (Primitive Amount)} {texts : List String}
    (isStyled : ∀ primitive ∈ primitives, primitive.IsStyled fun text => IsText text.toList)
    (written : primitives.mapM element = .ok texts) : ∀ text ∈ texts, IsText text.toList := by
  induction primitives generalizing texts with
  | nil =>
      cases written
      exact List.forall_mem_nil _
  | cons primitive primitives ih =>
      obtain ⟨first, others⟩ := List.forall_mem_cons.mp isStyled
      rw [List.mapM_cons] at written
      obtain ⟨text, isFirst, written⟩ := exists_of_bind_eq_ok written
      obtain ⟨more, areOthers, written⟩ := exists_of_bind_eq_ok written
      cases written
      exact List.forall_mem_cons.mpr ⟨isText_element first isFirst, ih others areOthers⟩

/-- The SVG text of a drawing that says no lone half has none. -/
theorem isText_render {drawing : Drawing Amount}
    (isStyled : ∀ primitive ∈ drawing.primitives,
      primitive.IsStyled fun text => IsText text.toList) {svg : String}
    (rendered : render drawing = .ok svg) : IsText svg.toList := by
  obtain ⟨elements, written, more⟩ := exists_of_bind_eq_ok rendered
  obtain ⟨width, written_width, more⟩ := exists_of_bind_eq_ok more
  obtain ⟨height, written_height, -⟩ := exists_of_bind_eq_ok more
  obtain rfl : framed width height elements = svg := Except.ok.inj
    ((render_eq_framed written_width written_height written).symm.trans rendered)
  have isText_width := isText_amountText written_width
  have isText_height := isText_amountText written_height
  have frame : IsText (frameTag width height).toList := by
    refine isText_tagWith ?_ ?_
    · simp only [List.map_cons, List.map_nil]
      decide
    simp only [List.map_cons, List.map_nil, List.forall_mem_cons, List.not_mem_nil, false_implies,
      implies_true, and_true]
    exact ⟨isText_of_plain (by decide), isText_width, isText_height,
      isText_append (isText_append (isText_append (isText_of_plain (by decide)) isText_width)
        (isText_of_plain (by decide))) isText_height⟩
  have lines : IsText (String.join (elements.map fun text => "\n  " ++ text)).toList := by
    refine isText_join fun line member => ?_
    obtain ⟨text, among, rfl⟩ := List.mem_map.mp member
    exact isText_append (isText_of_plain (by decide)) (isText_elements isStyled written text among)
  have opening : IsText "<".toList := isText_of_plain (by decide)
  have closing : IsText ">".toList := isText_of_plain (by decide)
  have background : IsText ("<" ++ backgroundTag ++ ">").toList := isText_of_plain (by decide)
  exact isText_append (isText_append (isText_append opening frame) closing)
    (isText_append (isText_of_plain (by decide)) (isText_append background
      (isText_append lines (isText_of_plain (by decide)))))

end Svg

/-! Documents -/

theorem Document.key_mem_catalog (document : Document) : document.key ∈ Key.catalog := by
  have standard : Key.cMajor ∈ Key.catalog := by decide
  have known (index : Int) : Key.atOrDefault index ∈ Key.catalog := by
    rw [Key.atOrDefault, Key.at?]
    split
    · cases found : Key.catalog[index.toNat]? with
      | none => exact standard
      | some key => exact List.mem_of_getElem? found
    · exact standard
  rw [Document.key, Key.ofStored]
  cases document.keyIndex.whole? with
  | none => exact standard
  | some index => exact known index

/-- Labels of notes are plain: the names of degrees and the signs of accidentals are. -/
theorem plain_label {α : Type} [Number.Scalar α] {key : Key} (inCatalog : key ∈ Key.catalog)
    {text : String} {note : Notation.Note α}
    (member : note ∈ (Notation.Melody.ofText key text).notes) :
    note.label.toList.all Text.isPlain = true := by
  obtain ⟨digit, modifiers, -, rfl⟩ := Notation.exists_noteOf member
  have names : ∀ key ∈ Key.catalog, ∀ label ∈ key.degreeLabels.toList,
      label.toList.all Text.isPlain = true := by decide
  have degree : (((key.label? (Notation.degreeOf digit)).getD "").toList.all Text.isPlain) = true := by
    cases found : key.label? (Notation.degreeOf digit) with
    | none => rfl
    | some label =>
        rw [Key.label?] at found
        split at found
        · exact names key inCatalog label (Vector.mem_toList_iff.mpr (Vector.mem_of_getElem? found))
        · cases found
  have sign : ∀ accidental, (Notation.accidentalSign accidental).toList.all Text.isPlain = true := by
    intro accidental
    unfold Notation.accidentalSign
    split
    · decide
    · split <;> decide
  simp only [Notation.noteOf, String.toList_append, List.all_append, degree, sign, Bool.and_self]

namespace Layout

/-- Only chord text can say a lone half. -/
theorem isSaid_meaning {α : Type} [Number.Scalar α] {key : Key} (inCatalog : key ∈ Key.catalog)
    {block : Block} (whole : block.kind = .chords →
      ∀ point ∈ Text.codePoints block.content, point.isHalf = false) :
    IsSaid (fun text => IsText text.toList) (block.meaning (α := α) key) := by
  unfold Block.meaning
  split
  · rename_i chords
    intro glyph member
    rw [Text.ofCodePoints, String.toList_ofList, List.flatMap_singleton]
    exact Text.spellsOnly_spelling (whole chords glyph member)
  all_goals
    refine ⟨isText_of_plain (by decide), fun note member => ?_⟩
    have plain := List.all_eq_true.mp (plain_label inCatalog member)
    refine ⟨?_, ?_⟩
    · refine isText_of_plain (List.all_eq_true.mpr fun c among => plain c ?_)
      rw [String.toList_ofList] at among
      exact List.mem_of_mem_take among
    · refine isText_of_plain (List.all_eq_true.mpr fun c among => plain c ?_)
      rw [String.toList_ofList] at among
      exact List.mem_of_mem_drop among

end Layout

end Jianpu
