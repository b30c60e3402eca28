import Jianpu.Drawing.Svg
import Jianpu.Proofs.Drawing.Extent
import Jianpu.Proofs.Text.Markup
import Mathlib.Data.List.Forall2
import Mathlib.Tactic.Choose
import Mathlib.Tactic.Tauto

/-! Drawings as SVG, read back. Each primitive is one element, and the texts of glyphs are the
only thing that is said between the tags; which tags there are does not depend on them. -/

set_option autoImplicit false

namespace Jianpu

open Number (Amount Binary64.ofInt? Binary64.value?)
open Text.Markup

/-! What is compared -/

/-- The numbers of a primitive that are written. -/
def Primitive.numbers {α : Type} : Primitive α → List α
  | .glyph g => [g.x, g.y]
  | .line x1 y1 x2 y2 strokeWidth => [x1, y1, x2, y2, strokeWidth]
  | .dot x y radius => [x, y, radius]

/-- The numbers of a drawing that are written. -/
def Drawing.numbers {α : Type} (drawing : Drawing α) : List α :=
  drawing.canvas.width :: drawing.canvas.height :: drawing.primitives.flatMap Primitive.numbers

/-- The names of the tags of a primitive's element. -/
def Primitive.tagNames {α : Type} : Primitive α → List String
  | .glyph _ => ["text", "/text"]
  | .line .. => ["line"]
  | .dot .. => ["circle"]

/-- What a primitive says. -/
def Primitive.text? {α : Type} : Primitive α → Option String
  | .glyph g => some g.text
  | .line .. | .dot .. => none

/-- A primitive that says nothing. -/
def Primitive.silent {α : Type} : Primitive α → Primitive α
  | .glyph g => .glyph { g with text := "" }
  | .line x1 y1 x2 y2 strokeWidth => .line x1 y1 x2 y2 strokeWidth
  | .dot x y radius => .dot x y radius

/-- A drawing without what its glyphs say. -/
def Drawing.silent {α : Type} (drawing : Drawing α) : Drawing α :=
  ⟨drawing.canvas, drawing.primitives.map Primitive.silent⟩

/-- The glyphs that a layout makes have an anchor, a weight and a size without quotes in them. -/
def Primitive.IsPlain {α : Type} : Primitive α → Prop
  | .glyph g => IsValue g.anchor ∧ IsValue g.fontWeight ∧ IsValue g.fontSize.text
  | .line .. | .dot .. => True

/-- A primitive as layouts make them, whose glyph says something of a kind. -/
def Primitive.IsStyled {α : Type} (sayable : String → Prop) : Primitive α → Prop
  | .glyph g => sayable g.text ∧ g.anchor ∈ ["start", "middle"] ∧
      g.fontWeight ∈ ["500", "bold", "normal"] ∧ g.fontFamily ∈ ["sans-serif", "monospace"] ∧
      (g.fontSize = 24 ∨ g.fontSize = 14)
  | .line .. | .dot .. => True

namespace Svg

/-- The tokens of a picture of a drawing: the frame, and in it the elements of the primitives in
the order they are painted. Besides the texts of the glyphs there are only blanks. -/
structure IsPicture (drawing : Drawing Amount) (tokens : List Token) : Prop where
  names : names tokens =
    "svg" :: "rect" :: (drawing.primitives.flatMap Primitive.tagNames ++ ["/svg"])
  texts : saidAfter (tagName · = "text") tokens = drawing.primitives.filterMap Primitive.text?
  start : textBefore tokens = []
  blanks : ∀ segment ∈ segments tokens, tagName segment.1 ≠ "text" →
    ∀ c ∈ segment.2, Text.isBlank c = true

/-! Numbers -/

theorem isValue_append {first second : String} (isFirst : IsValue first)
    (isSecond : IsValue second) : IsValue (first ++ second) := by
  intro c member
  rw [String.toList_append, List.mem_append] at member
  exact member.elim (isFirst c) (isSecond c)

/-- A text of digits, signs and points. -/
def IsNumeral (text : String) : Prop :=
  ∀ c ∈ text.toList, c.isDigit = true ∨ c ∈ ['-', '.']

instance (text : String) : Decidable (IsNumeral text) :=
  List.decidableBAll _ text.toList

theorem isNumeral_append {first second : String} (isFirst : IsNumeral first)
    (isSecond : IsNumeral second) : IsNumeral (first ++ second) := by
  intro c member
  rw [String.toList_append, List.mem_append] at member
  exact member.elim (isFirst c) (isSecond c)

theorem isNumeral_toString_nat (n : Nat) : IsNumeral (toString n) := by
  intro c member
  rw [Nat.toString_eq_repr, Nat.toList_repr] at member
  exact .inl (Nat.isDigit_of_mem_toDigits (by decide) (by decide) member)

theorem isNumeral_toString_int (n : Int) : IsNumeral (toString n) := by
  cases n with
  | ofNat n => exact isNumeral_toString_nat n
  | negSucc n => exact isNumeral_append (by decide) (isNumeral_toString_nat (n + 1))

theorem isNumeral_hundredthsText (hundredths : Nat) : IsNumeral (hundredthsText hundredths) := by
  have pointed := isNumeral_append (isNumeral_toString_nat (hundredths / 100))
    (by decide : IsNumeral ".")
  unfold hundredthsText
  dsimp only
  split
  · exact isNumeral_toString_nat _
  · split
    · exact isNumeral_append pointed (isNumeral_toString_nat _)
    · refine isNumeral_append (isNumeral_append pointed ?_) (isNumeral_toString_nat _)
      split <;> decide

theorem isNumeral_coordinateText (value : Rat) : IsNumeral (coordinateText value) := by
  unfold coordinateText
  split
  · exact isNumeral_toString_int _
  · refine isNumeral_append ?_ (isNumeral_hundredthsText _)
    split <;> decide

theorem IsNumeral.isValue {text : String} (isNumeral : IsNumeral text) : IsValue text := by
  intro c member
  rcases isNumeral c member with digit | mark
  · constructor
    · rintro rfl
      cases digit
    · rintro rfl
      cases digit
  · exact (by simp : ∀ mark ∈ ['-', '.'], mark ≠ '"' ∧ mark ≠ '<') c mark

/-- The ways in which a number is written: as a numeral, or by name where it has no value. -/
theorem amountText_eq_ok {amount : Amount} {text : String} (written : amountText amount = .ok text) :
    IsNumeral text ∨ text ∈ ["nan", "-inf", "inf"] := by
  cases amount with
  | whole n =>
      rw [amountText] at written
      split at written
      · cases written
        exact .inl (isNumeral_coordinateText n)
      · cases written
  | real x =>
      rw [amountText] at written
      split at written
      · cases written
        exact .inl (isNumeral_coordinateText _)
      · cases written
        right
        split
        · simp
        · split <;> simp

/-- A number that fits binary64, or is one, is written without quotes. -/
theorem amountText_of_isSome {amount : Amount} (fits : amount.toFloat?.isSome) :
    ∃ text, amountText amount = .ok text ∧ IsValue text := by
  obtain ⟨text, written⟩ : ∃ text, amountText amount = .ok text := by
    cases amount with
    | whole n =>
        obtain ⟨x, found⟩ := Option.isSome_iff_exists.mp fits
        rw [amountText, show Binary64.ofInt? n = some x from found]
        exact ⟨_, rfl⟩
    | real x =>
        rw [amountText]
        split <;> exact ⟨_, rfl⟩
  refine ⟨text, written, ?_⟩
  rcases amountText_eq_ok written with isNumeral | name
  · exact isNumeral.isValue
  · exact (by decide : ∀ name ∈ ["nan", "-inf", "inf"], IsValue name) text name

/-! Elements -/

theorem isTagText_attr {name value : String} (isBare : IsBare name) (isValue : IsValue value) :
    IsTagText (attr name value) := by
  have quoted : attr name value = " " ++ name ++ "=" ++ ("\"" ++ value ++ "\"") := by
    have quote : ("=\"" : String) = "=" ++ "\"" := rfl
    simp only [attr, quote, String.append_assoc]
  have space : IsBare " " := by decide
  have equals : IsBare "=" := by decide
  rw [quoted]
  exact ((space.isTagText.append isBare.isTagText).append equals.isTagText).append
    isValue.isTagText_quoted

/-- A tag with attributes. -/
def tagWith (name : String) (attributes : List (String × String)) : String :=
  name ++ String.join (attributes.map fun entry => attr entry.1 entry.2)

theorem isTagText_tagWith {name : String} {attributes : List (String × String)}
    (isBare : IsBare name) (fine : ∀ entry ∈ attributes, IsBare entry.1 ∧ IsValue entry.2) :
    IsTagText (tagWith name attributes) := by
  refine isBare.isTagText.append ?_
  clear isBare
  induction attributes with
  | nil => exact IsBare.isTagText (by decide)
  | cons entry attributes ih =>
      obtain ⟨first, others⟩ := List.forall_mem_cons.mp fine
      rw [List.map_cons, String.join_cons]
      exact (isTagText_attr first.1 first.2).append (ih others)

theorem tagName_tagWith {name : String} {entry : String × String}
    {attributes : List (String × String)} (noSpace : ' ' ∉ name.toList) (ending : String) :
    tagName (tagWith name (entry :: attributes) ++ ending) = name := by
  have space : (attr entry.1 entry.2).toList =
      ' ' :: (entry.1 ++ "=\"" ++ entry.2 ++ "\"").toList := by
    simp [attr]
  have isName : ∀ c ∈ name.toList, decide (c ≠ ' ') = true := by
    intro c member
    refine decide_eq_true ?_
    rintro rfl
    exact noSpace member
  rw [tagWith, tagName, List.map_cons, String.join_cons, String.toList_append, String.toList_append,
    String.toList_append, space, List.append_assoc, List.takeWhile_append_of_pos isName]
  simp

/-- The tokens of the element of a primitive, given its tag. -/
def elementTokens (tag : String) : Primitive Amount → List Token
  | .glyph g => .tag tag :: content (Text.Markup.escape g.text) ++ [.tag "/text"]
  | .line .. | .dot .. => [.tag tag]

/-- What the element of a primitive is, whatever it says. -/
structure IsElement (primitive : Primitive Amount) (tag : String) : Prop where
  named : primitive.tagNames.head? = some (tagName tag)
  written : ∀ other, other.silent = primitive.silent →
    ∃ text, element other = .ok text ∧ read text = some (elementTokens tag other)

/-- A primitive without text is a tag of its own. -/
theorem isElement_of_tag {primitive : Primitive Amount} {name : String} (entry : String × String)
    (attributes : List (String × String)) (isBare : IsBare name) (noSpace : ' ' ∉ name.toList)
    (named : primitive.tagNames = [name])
    (fine : ∀ pair ∈ entry :: attributes, IsBare pair.1 ∧ IsValue pair.2)
    (unique : ∀ other, other.silent = primitive.silent → other = primitive)
    (written : element primitive = .ok ("<" ++ (tagWith name (entry :: attributes) ++ " /") ++ ">"))
    (tokens : ∀ tag, elementTokens tag primitive = [.tag tag]) :
    ∃ tag, IsElement primitive tag := by
  have isTagText : IsTagText (tagWith name (entry :: attributes) ++ " /") :=
    (isTagText_tagWith isBare fine).append (IsBare.isTagText (by decide))
  refine ⟨tagWith name (entry :: attributes) ++ " /", ?_, fun other same => ?_⟩
  · rw [tagName_tagWith noSpace, named]
    rfl
  · obtain rfl := unique other same
    exact ⟨_, written, by rw [tokens, read_tag isTagText]⟩

theorem eq_glyph_of_silent_eq {other : Primitive Amount} {g : Glyph Amount}
    (same : other.silent = (Primitive.glyph g).silent) :
    ∃ text, other = .glyph { g with text } := by
  cases other with
  | glyph h =>
      have fields := Primitive.glyph.inj same
      obtain ⟨x, y, text, fontSize, fontWeight, fontFamily, anchor, centered⟩ := h
      cases fields
      exact ⟨text, rfl⟩
  | line => cases same
  | dot => cases same

theorem exists_isElement_glyph {g : Glyph Amount} {x y : String} (written_x : amountText g.x = .ok x)
    (written_y : amountText g.y = .ok y) (isValue_x : IsValue x) (isValue_y : IsValue y)
    (isPlain : (Primitive.glyph g).IsPlain) : ∃ tag, IsElement (.glyph g) tag := by
  obtain ⟨anchor, weight, size⟩ := isPlain
  let others := (if g.centered then [("dy", "0.35em")] else [])
    ++ [("text-anchor", g.anchor), ("fill", ink), ("font-weight", g.fontWeight),
      ("font-family", escapeAttribute g.fontFamily), ("font-size", g.fontSize.text)]
  let tag := tagWith "text" (("x", x) :: ("y", y) :: others)
  have isTagText : IsTagText tag := by
    refine isTagText_tagWith (by decide) (List.forall_mem_cons.mpr
      ⟨⟨(by decide : IsBare "x"), isValue_x⟩, List.forall_mem_cons.mpr
        ⟨⟨(by decide : IsBare "y"), isValue_y⟩, List.forall_mem_append.mpr ⟨?_, ?_⟩⟩⟩)
    · split <;> decide
    · simp only [List.forall_mem_cons, List.not_mem_nil, false_implies, implies_true, and_true]
      exact ⟨⟨by decide, anchor⟩, ⟨by decide, by decide⟩, ⟨by decide, weight⟩,
        ⟨by decide, isValue_escapeAttribute _⟩, ⟨by decide, size⟩⟩
  refine ⟨tag, ?_, fun other same => ?_⟩
  · rw [← String.append_empty (s := tag), tagName_tagWith (by decide)]
    rfl
  · obtain ⟨text, rfl⟩ := eq_glyph_of_silent_eq same
    refine ⟨"<" ++ tag ++ ">" ++ escape text ++ "</text>", ?_, ?_⟩
    · have opening : ∀ rest : String, "<" ++ ("text" ++ rest) = "<text" ++ rest := fun rest => by
        rw [← String.append_assoc]
        rfl
      simp only [element, written_x, written_y, tag, others, tagWith]
      cases g.centered <;>
        simp [String.append_assoc, opening, pure, Except.pure, bind, Except.bind]
    · have closing : read "</text>" = some [.tag "/text"] := by decide
      rw [read_append (read_append (read_tag isTagText) (read_escape text)) closing]
      rfl

theorem exists_isElement_line {x1 y1 x2 y2 strokeWidth : Amount}
    (fits : ∀ number ∈ [x1, y1, x2, y2, strokeWidth], ∃ text, amountText number = .ok text ∧
      IsValue text) :
    ∃ tag, IsElement (.line x1 y1 x2 y2 strokeWidth) tag := by
  simp only [List.forall_mem_cons] at fits
  obtain ⟨⟨x1, written_x1, isValue_x1⟩, ⟨y1, written_y1, isValue_y1⟩, ⟨x2, written_x2, isValue_x2⟩,
    ⟨y2, written_y2, isValue_y2⟩, ⟨width, written_width, isValue_width⟩, -⟩ := fits
  have opening : ("<line" : String) = "<" ++ "line" := rfl
  have closing : (" />" : String) = " /" ++ ">" := rfl
  refine isElement_of_tag ("x1", x1)
    [("y1", y1), ("x2", x2), ("y2", y2), ("stroke", ink), ("stroke-width", width)]
    (by decide) (by decide) rfl ?_ ?_ ?_ fun _ => rfl
  · simp only [List.forall_mem_cons, List.not_mem_nil, false_implies, implies_true, and_true]
    exact ⟨⟨by decide, isValue_x1⟩, ⟨by decide, isValue_y1⟩, ⟨by decide, isValue_x2⟩,
      ⟨by decide, isValue_y2⟩, ⟨by decide, by decide⟩, ⟨by decide, isValue_width⟩⟩
  · intro other same
    cases other <;> cases same
    rfl
  · simp only [element, written_x1, written_y1, written_x2, written_y2, written_width, opening,
      closing, tagWith, List.map_cons, List.map_nil, String.join_cons, String.join_nil,
      String.append_assoc, String.append_empty]
    rfl

theorem exists_isElement_dot {x y radius : Amount}
    (fits : ∀ number ∈ [x, y, radius], ∃ text, amountText number = .ok text ∧ IsValue text) :
    ∃ tag, IsElement (.dot x y radius) tag := by
  simp only [List.forall_mem_cons] at fits
  obtain ⟨⟨x, written_x, isValue_x⟩, ⟨y, written_y, isValue_y⟩,
    ⟨radius, written_radius, isValue_radius⟩, -⟩ := fits
  have opening : ("<circle" : String) = "<" ++ "circle" := rfl
  have closing : (" />" : String) = " /" ++ ">" := rfl
  refine isElement_of_tag ("cx", x) [("cy", y), ("r", radius), ("fill", ink)] (by decide)
    (by decide) rfl ?_ ?_ ?_ fun _ => rfl
  · simp only [List.forall_mem_cons, List.not_mem_nil, false_implies, implies_true, and_true]
    exact ⟨⟨by decide, isValue_x⟩, ⟨by decide, isValue_y⟩, ⟨by decide, isValue_radius⟩,
      ⟨by decide, by decide⟩⟩
  · intro other same
    cases other <;> cases same
    rfl
  · simp only [element, written_x, written_y, written_radius, opening, closing, tagWith,
      List.map_cons, List.map_nil, String.join_cons, String.join_nil, String.append_assoc,
      String.append_empty]
    rfl

/-- A primitive all of whose numbers can be written is an element. -/
theorem exists_isElement {primitive : Primitive Amount}
    (fits : ∀ number ∈ primitive.numbers, number.toFloat?.isSome) (isPlain : primitive.IsPlain) :
    ∃ tag, IsElement primitive tag := by
  have writes : ∀ number ∈ primitive.numbers, ∃ text, amountText number = .ok text ∧ IsValue text :=
    fun number member => amountText_of_isSome (fits number member)
  cases primitive with
  | glyph g =>
      simp only [Primitive.numbers, List.forall_mem_cons] at writes
      obtain ⟨⟨x, written_x, isValue_x⟩, ⟨y, written_y, isValue_y⟩, -⟩ := writes
      exact exists_isElement_glyph written_x written_y isValue_x isValue_y isPlain
  | line => exact exists_isElement_line writes
  | dot => exact exists_isElement_dot writes

/-! Documents -/

/-- The tokens behind the frame of a document, given the tag of each primitive. -/
def bodyTokens : List (String × Primitive Amount) → List Token
  | [] => content "\n" ++ [.tag "/svg"]
  | (tag, primitive) :: rest => content "\n  " ++ elementTokens tag primitive ++ bodyTokens rest

/-- What a picture says of the primitives behind its frame. -/
structure IsBody (primitives : List (Primitive Amount)) (tokens : List Token) : Prop where
  names : names tokens = primitives.flatMap Primitive.tagNames ++ ["/svg"]
  texts : saidAfter (tagName · = "text") tokens = primitives.filterMap Primitive.text?
  start : ∀ c ∈ textBefore tokens, Text.isBlank c = true
  blanks : ∀ segment ∈ segments tokens, tagName segment.1 ≠ "text" →
    ∀ c ∈ segment.2, Text.isBlank c = true

theorem isBlank_of_mem_gap : ∀ c ∈ ("\n  " : String).toList, Text.isBlank c = true :=
  List.all_eq_true.mp (by decide)

theorem isBody_nil : IsBody [] (bodyTokens []) :=
  ⟨rfl, rfl, List.all_eq_true.mp (by decide),
    List.forall_mem_singleton.mpr fun _ => List.forall_mem_nil _⟩

theorem isBody_cons_glyph {g : Glyph Amount} {tag : String} (name : tagName tag = "text")
    {primitives : List (Primitive Amount)} {tokens : List Token}
    (isBody : IsBody primitives tokens) :
    IsBody (.glyph g :: primitives)
      (content "\n  " ++ elementTokens tag (.glyph g) ++ tokens) := by
  have parts : content "\n  " ++ elementTokens tag (.glyph g) ++ tokens =
      content "\n  " ++ (.tag tag :: content (escape g.text) ++ .tag "/text" :: tokens) := by
    simp [elementTokens]
  have ending : tagName "/text" = "/text" := by decide
  rw [parts]
  constructor
  · simp [isBody.names, name, ending, Primitive.tagNames]
  · rw [saidAfter_content_append, saidAfter_escape (by simpa using name),
      saidAfter_other_tag (by decide), isBody.texts]
    rfl
  · simpa using isBlank_of_mem_gap
  · simp only [segments_content_append, List.cons_append, segments_tag, List.forall_mem_cons]
    exact ⟨fun other => absurd name other, fun _ => isBody.start, isBody.blanks⟩

theorem isBody_cons_tag {primitive : Primitive Amount} {tag : String}
    (named : primitive.tagNames = [tagName tag]) (other : tagName tag ≠ "text")
    (silent : primitive.text? = none) (element : elementTokens tag primitive = [.tag tag])
    {primitives : List (Primitive Amount)} {tokens : List Token}
    (isBody : IsBody primitives tokens) :
    IsBody (primitive :: primitives)
      (content "\n  " ++ elementTokens tag primitive ++ tokens) := by
  rw [element, List.append_assoc, List.singleton_append]
  constructor
  · simp [isBody.names, named]
  · rw [saidAfter_content_append, saidAfter_other_tag (by simpa using other), isBody.texts,
      List.filterMap_cons_none silent]
  · simpa using isBlank_of_mem_gap
  · simp only [segments_content_append, segments_tag, List.forall_mem_cons]
    exact ⟨fun _ => isBody.start, isBody.blanks⟩

/-- The body of a document says what its primitives say. -/
theorem isBody_bodyTokens {primitives : List (Primitive Amount)} {tags : List String}
    (named : List.Forall₂ (fun primitive tag => primitive.tagNames.head? = some (tagName tag))
      primitives tags) : IsBody primitives (bodyTokens (tags.zip primitives)) := by
  induction named with
  | nil => exact isBody_nil
  | @cons primitive tag primitives tags first others ih =>
      rw [List.zip_cons_cons, bodyTokens]
      cases primitive with
      | glyph g => exact isBody_cons_glyph (Option.some.inj first).symm ih
      | line =>
          have name : tagName tag = "line" := (Option.some.inj first).symm
          exact isBody_cons_tag (by rw [name]; rfl) (by rw [name]; decide) rfl rfl ih
      | dot =>
          have name : tagName tag = "circle" := (Option.some.inj first).symm
          exact isBody_cons_tag (by rw [name]; rfl) (by rw [name]; decide) rfl rfl ih

/-- The elements of primitives, each on its own line, and the end of the document. -/
theorem exists_body {primitives : List (Primitive Amount)} {tags : List String}
    (isElements : List.Forall₂ IsElement primitives tags) {others : List (Primitive Amount)}
    (same : others.map Primitive.silent = primitives.map Primitive.silent) :
    ∃ texts, others.mapM element = .ok texts ∧
      read (String.join (texts.map fun text => "\n  " ++ text) ++ "\n</svg>") =
        some (bodyTokens (tags.zip others)) := by
  induction isElements generalizing others with
  | nil =>
      obtain rfl := List.map_eq_nil_iff.mp same
      exact ⟨[], rfl, by decide⟩
  | @cons primitive tag primitives tags isElement isElements ih =>
      obtain ⟨other, others, rfl, first, more⟩ := List.map_eq_cons_iff.mp same
      obtain ⟨text, written, tokens⟩ := isElement.written other first
      obtain ⟨texts, allWritten, allTokens⟩ := ih more
      refine ⟨text :: texts, ?_, ?_⟩
      · rw [List.mapM_cons, written, allWritten]
        rfl
      · have gap : read "\n  " = some (content "\n  ") := by decide
        rw [List.map_cons, String.join_cons, String.append_assoc,
          read_append (read_append gap tokens) allTokens]
        rfl

theorem tagNames_silent (primitive : Primitive Amount) :
    primitive.silent.tagNames = primitive.tagNames := by
  cases primitive <;> rfl

/-- The tags of a body are the same when nothing is said. -/
theorem tags_bodyTokens_silent (names : List String) (primitives : List (Primitive Amount)) :
    tags (bodyTokens (names.zip (primitives.map Primitive.silent))) =
      tags (bodyTokens (names.zip primitives)) := by
  induction names generalizing primitives with
  | nil => rfl
  | cons name names ih =>
      cases primitives with
      | nil => rfl
      | cons primitive primitives =>
          simp only [List.map_cons, List.zip_cons_cons, bodyTokens, tags_append, ih]
          cases primitive <;> simp [Primitive.silent, elementTokens]

/-! The frame -/

/-- The tag that opens a document. -/
def frameTag (width height : String) : String :=
  tagWith "svg" [("xmlns", "http://www.w3.org/2000/svg"), ("width", width), ("height", height),
    ("viewBox", "0 0 " ++ width ++ " " ++ height)]

def backgroundTag : String :=
  tagWith "rect" [("width", "100%"), ("height", "100%"), ("fill", "#ffffff")] ++ " /"

/-- Elements in the frame of a document. -/
def framed (width height : String) (texts : List String) : String :=
  "<" ++ frameTag width height ++ ">" ++ ("\n  " ++ ("<" ++ backgroundTag ++ ">" ++
    (String.join (texts.map fun text => "\n  " ++ text) ++ "\n</svg>")))

def framedTokens (frame : String) (body : List Token) : List Token :=
  .tag frame :: (content "\n  " ++ .tag backgroundTag :: body)

theorem tagName_frameTag (width height : String) : tagName (frameTag width height) = "svg" := by
  rw [← String.append_empty (s := frameTag width height), frameTag, tagName_tagWith (by decide)]

theorem tagName_backgroundTag : tagName backgroundTag = "rect" :=
  tagName_tagWith (by decide) _

section Frame

variable {width height : String}

theorem isTagText_frameTag (isValue_width : IsValue width) (isValue_height : IsValue height) :
    IsTagText (frameTag width height) := by
  refine isTagText_tagWith (by decide) ?_
  simp only [List.forall_mem_cons, List.not_mem_nil, false_implies, implies_true, and_true]
  exact ⟨⟨by decide, by decide⟩, ⟨by decide, isValue_width⟩, ⟨by decide, isValue_height⟩, by decide,
    isValue_append (isValue_append (isValue_append (by decide) isValue_width) (by decide))
      isValue_height⟩

theorem isTagText_backgroundTag : IsTagText backgroundTag :=
  (isTagText_tagWith (by decide) (by decide)).append (IsBare.isTagText (by decide))

theorem render_eq_framed {drawing : Drawing Amount} {texts : List String}
    (written_width : amountText drawing.canvas.width = .ok width)
    (written_height : amountText drawing.canvas.height = .ok height)
    (written : drawing.primitives.mapM element = .ok texts) :
    render drawing = .ok (framed width height texts) := by
  -- The literals of the program are cut at other places than the tags.
  have literal : ∀ {first second joined : String}, first ++ second = joined →
      ∀ rest, first ++ (second ++ rest) = joined ++ rest := by
    rintro first second _ rfl rest
    exact (String.append_assoc ..).symm
  have svg := @literal "<" "svg" "<svg" rfl
  have rect := @literal "<" "rect" "<rect" rfl
  have line := @literal "\n  " "<rect" "\n  <rect" rfl
  have closing := @literal " /" ">" " />" rfl
  simp only [render, written, written_width, written_height, framed, frameTag, backgroundTag,
    tagWith, List.map_cons, List.map_nil, String.join_cons, String.join_nil, String.append_assoc,
    String.empty_append, svg, rect, line, closing]
  rfl

theorem read_framed (isValue_width : IsValue width) (isValue_height : IsValue height)
    {texts : List String} {body : List Token}
    (readBody : read (String.join (texts.map fun text => "\n  " ++ text) ++ "\n</svg>") =
      some body) :
    read (framed width height texts) = some (framedTokens (frameTag width height) body) := by
  have gap : read "\n  " = some (content "\n  ") := by decide
  rw [framed, read_append (read_tag (isTagText_frameTag isValue_width isValue_height))
    (read_append gap (read_append (read_tag isTagText_backgroundTag) readBody))]
  rfl

theorem isPicture_framedTokens {drawing : Drawing Amount} {body : List Token}
    (isBody : IsBody drawing.primitives body) :
    IsPicture drawing (framedTokens (frameTag width height) body) := by
  constructor
  · simp [framedTokens, isBody.names, tagName_frameTag, tagName_backgroundTag]
  · rw [framedTokens, saidAfter_other_tag (by rw [tagName_frameTag]; decide),
      saidAfter_content_append, saidAfter_other_tag (by rw [tagName_backgroundTag]; decide),
      isBody.texts]
  · rfl
  · simp only [framedTokens, segments_tag, segments_content_append, List.forall_mem_cons]
    refine ⟨fun _ => ?_, fun _ => isBody.start, isBody.blanks⟩
    simpa using isBlank_of_mem_gap

end Frame

/-- What the text of a drawing is when it is read: a picture, with the same tags as any drawing
that differs in what its glyphs say and in nothing else. -/
structure Depicts (drawing : Drawing Amount) (svg : String) (tokens : List Token) : Prop where
  rendered : render drawing = .ok svg
  read : read svg = some tokens
  isPicture : IsPicture drawing tokens
  sameTags : ∀ other : Drawing Amount, other.silent = drawing.silent →
    ∃ text shown, render other = .ok text ∧ Text.Markup.read text = some shown ∧
      tags shown = tags tokens

/-- A drawing all of whose numbers can be written becomes a picture of it, with tags that do not
depend on what is said. -/
theorem exists_isPicture {drawing : Drawing Amount}
    (fits : ∀ number ∈ drawing.numbers, number.toFloat?.isSome)
    (isPlain : ∀ primitive ∈ drawing.primitives, primitive.IsPlain) :
    ∃ allTags, ∀ other : Drawing Amount, other.silent = drawing.silent →
      ∃ svg tokens, render other = .ok svg ∧ read svg = some tokens ∧ IsPicture other tokens ∧
        tags tokens = allTags := by
  simp only [Drawing.numbers, List.forall_mem_cons, List.forall_mem_flatMap] at fits
  obtain ⟨fitsWidth, fitsHeight, fits⟩ := fits
  obtain ⟨width, written_width, isValue_width⟩ := amountText_of_isSome fitsWidth
  obtain ⟨height, written_height, isValue_height⟩ := amountText_of_isSome fitsHeight
  have elements : ∀ primitive ∈ drawing.primitives, ∃ tag, IsElement primitive tag :=
    fun primitive member => exists_isElement (fits primitive member) (isPlain primitive member)
  choose! name isElement using elements
  let names := drawing.primitives.map name
  have isElements : List.Forall₂ IsElement drawing.primitives names := by
    rwa [List.forall₂_map_right_iff, List.forall₂_same]
  refine ⟨tags (framedTokens (frameTag width height) (bodyTokens (names.zip drawing.primitives))),
    fun other same => ?_⟩
  obtain ⟨canvas, primitives⟩ := Drawing.mk.inj same
  obtain ⟨texts, written, readBody⟩ := exists_body isElements primitives
  -- The tags were named for the drawing; the other one has them too, since it differs in texts.
  have named : List.Forall₂ (fun primitive tag => primitive.tagNames.head? = some (tagName tag))
      other.primitives names := by
    have silent : List.Forall₂ (fun primitive tag => primitive.tagNames.head? = some (tagName tag))
        (drawing.primitives.map Primitive.silent) names := by
      rw [List.forall₂_map_left_iff, List.forall₂_map_right_iff, List.forall₂_same]
      intro primitive member
      rw [tagNames_silent, (isElement primitive member).named]
    rw [← primitives, List.forall₂_map_left_iff] at silent
    simpa only [tagNames_silent] using silent
  refine ⟨_, _, render_eq_framed (canvas ▸ written_width) (canvas ▸ written_height) written,
    read_framed isValue_width isValue_height readBody,
    isPicture_framedTokens (isBody_bodyTokens named), ?_⟩
  have sameTags : tags (bodyTokens (names.zip other.primitives)) =
      tags (bodyTokens (names.zip drawing.primitives)) := by
    rw [← tags_bodyTokens_silent, primitives, tags_bodyTokens_silent]
  simp only [framedTokens, tags_tag, tags_append, sameTags]

theorem exists_depicts {drawing : Drawing Amount}
    (fits : ∀ number ∈ drawing.numbers, number.toFloat?.isSome)
    (isPlain : ∀ primitive ∈ drawing.primitives, primitive.IsPlain) :
    ∃ svg tokens, Depicts drawing svg tokens := by
  obtain ⟨allTags, each⟩ := exists_isPicture fits isPlain
  obtain ⟨svg, tokens, rendered, read, isPicture, same⟩ := each drawing rfl
  refine ⟨svg, tokens, rendered, read, isPicture, fun other silent => ?_⟩
  obtain ⟨text, shown, otherRendered, otherRead, -, otherSame⟩ := each other silent
  exact ⟨text, shown, otherRendered, otherRead, otherSame.trans same.symm⟩

/-! Numbers that are too large -/

/-- A result that is there exactly under a condition; without it a number is too large. -/
def SucceedsWhen {α : Type} (condition : Prop) (result : Except Number.Fault α) : Prop :=
  (condition ∧ ∃ value, result = .ok value) ∨ (¬ condition ∧ result = .error .tooLarge)

section SucceedsWhen

variable {α β : Type} {condition other : Prop}

theorem succeedsWhen_ok {value : α} (holds : condition) : SucceedsWhen condition (.ok value) :=
  .inl ⟨holds, value, rfl⟩

theorem SucceedsWhen.bind {first : Except Number.Fault α} {next : α → Except Number.Fault β}
    (isFirst : SucceedsWhen condition first) (isNext : ∀ value, SucceedsWhen other (next value)) :
    SucceedsWhen (condition ∧ other) (first >>= next) := by
  rcases isFirst with ⟨holds, value, rfl⟩ | ⟨fails, rfl⟩
  · rcases isNext value with ⟨also, result⟩ | ⟨but, result⟩
    · exact .inl ⟨⟨holds, also⟩, result⟩
    · exact .inr ⟨fun both => but both.2, result⟩
  · exact .inr ⟨fun both => fails both.1, rfl⟩

theorem SucceedsWhen.of_iff {result : Except Number.Fault α} (same : other ↔ condition)
    (isResult : SucceedsWhen condition result) : SucceedsWhen other result := by
  rwa [propext same]

theorem succeedsWhen_mapM {condition : α → Prop} {f : α → Except Number.Fault β}
    (each : ∀ item, SucceedsWhen (condition item) (f item)) (items : List α) :
    SucceedsWhen (∀ item ∈ items, condition item) (items.mapM f) := by
  induction items with
  | nil => exact succeedsWhen_ok (List.forall_mem_nil _)
  | cons item items ih =>
      rw [List.mapM_cons]
      refine .of_iff ?_ ((each item).bind fun _ => ih.bind fun _ => succeedsWhen_ok trivial)
      rw [and_true, List.forall_mem_cons]

end SucceedsWhen

theorem succeedsWhen_amountText (amount : Amount) :
    SucceedsWhen amount.toFloat?.isSome (amountText amount) := by
  by_cases fits : amount.toFloat?.isSome
  · obtain ⟨text, written, -⟩ := amountText_of_isSome fits
    exact .inl ⟨fits, text, written⟩
  · refine .inr ⟨fits, ?_⟩
    cases amount with
    | whole n =>
        rw [amountText, show Binary64.ofInt? n = none from Option.not_isSome_iff_eq_none.mp fits]
    | real x => exact absurd rfl fits

theorem succeedsWhen_element (primitive : Primitive Amount) :
    SucceedsWhen (∀ number ∈ primitive.numbers, number.toFloat?.isSome) (element primitive) := by
  cases primitive with
  | glyph g =>
      refine .of_iff ?_ ((succeedsWhen_amountText g.x).bind fun _ =>
        (succeedsWhen_amountText g.y).bind fun _ => succeedsWhen_ok trivial)
      simp [Primitive.numbers]
  | line x1 y1 x2 y2 strokeWidth =>
      refine .of_iff ?_ ((succeedsWhen_amountText x1).bind fun _ =>
        (succeedsWhen_amountText y1).bind fun _ => (succeedsWhen_amountText x2).bind fun _ =>
        (succeedsWhen_amountText y2).bind fun _ =>
        (succeedsWhen_amountText strokeWidth).bind fun _ => succeedsWhen_ok trivial)
      simp [Primitive.numbers]
  | dot x y radius =>
      refine .of_iff ?_ ((succeedsWhen_amountText x).bind fun _ =>
        (succeedsWhen_amountText y).bind fun _ =>
        (succeedsWhen_amountText radius).bind fun _ => succeedsWhen_ok trivial)
      simp [Primitive.numbers]

theorem succeedsWhen_render (drawing : Drawing Amount) :
    SucceedsWhen (∀ number ∈ drawing.numbers, number.toFloat?.isSome) (render drawing) := by
  refine .of_iff ?_ ((succeedsWhen_mapM succeedsWhen_element drawing.primitives).bind fun _ =>
    (succeedsWhen_amountText drawing.canvas.width).bind fun _ =>
    (succeedsWhen_amountText drawing.canvas.height).bind fun _ => succeedsWhen_ok trivial)
  simp only [Drawing.numbers, List.forall_mem_cons, List.forall_mem_flatMap]
  tauto

end Svg

namespace Layout

open Number (Scalar Coordinate)
open Notation (Note Section)

variable {δ : Type}

/-! Layouts -/

theorem isPlain_of_isStyled {α : Type} {sayable : String → Prop} {primitive : Primitive α}
    (isStyled : primitive.IsStyled sayable) : primitive.IsPlain := by
  cases primitive with
  | line => trivial
  | dot => trivial
  | glyph g =>
      obtain ⟨-, anchor, weight, -, size⟩ := isStyled
      refine ⟨?_, ?_, ?_⟩
      · exact (by decide : ∀ anchor ∈ ["start", "middle"], IsValue anchor) _ anchor
      · exact (by decide : ∀ weight ∈ ["500", "bold", "normal"], IsValue weight) _ weight
      · rcases size with size | size
        · rw [size]
          decide
        · rw [size]
          decide

section Any

variable {α : Type} [Scalar α] {sayable : String → Prop}

theorem isStyled_notePrimitives {note : Note δ} (dash : sayable "-")
    (letter : sayable (String.ofList (note.label.toList.take 1)))
    (sign : sayable (String.ofList (note.label.toList.drop 1))) (centre : Point α)
    (next : Option (Note δ × Point α)) :
    ∀ primitive ∈ notePrimitives note centre next, primitive.IsStyled sayable := by
  intro primitive member
  rcases List.mem_append.mp member with front | line
  · rcases List.mem_append.mp front with front | dashes
    · rcases List.mem_append.mp front with label | dot
      · rcases List.mem_cons.mp label with rfl | signed
        · exact ⟨letter, by simp, by simp, by simp, .inl rfl⟩
        · split at signed
          · cases signed
          · obtain rfl := List.mem_singleton.mp signed
            exact ⟨sign, by simp, by simp, by simp, .inr rfl⟩
      · split at dot
        · obtain rfl := List.mem_singleton.mp dot
          trivial
        · cases dot
    · obtain ⟨number, -, rfl⟩ := List.mem_map.mp dashes
      exact ⟨dash, by simp, by simp, by simp, .inl rfl⟩
  · obtain ⟨tier, -, among⟩ := List.mem_flatMap.mp line
    obtain ⟨x1, y1, x2, y2, width, rfl⟩ : ∃ x1 y1 x2 y2 width,
        primitive = .line x1 y1 x2 y2 width := by
      unfold tierLines at among
      split at among
      · cases among
      · split at among
        · exact ⟨_, _, _, _, _, List.mem_singleton.mp among⟩
        · rcases List.mem_cons.mp among with rfl | last
          · exact ⟨_, _, _, _, _, rfl⟩
          · exact ⟨_, _, _, _, _, List.mem_singleton.mp last⟩
    trivial

/-- What a section is drawn with: dashes, and the parts of labels or the chord glyphs. -/
def IsSaid (sayable : String → Prop) : Section δ → Prop
  | .melody meaning _ => sayable "-" ∧ ∀ note ∈ meaning.notes,
      sayable (String.ofList (note.label.toList.take 1)) ∧
      sayable (String.ofList (note.label.toList.drop 1))
  | .chords glyphs _ => ∀ glyph ∈ glyphs, sayable (Text.ofCodePoints [glyph])

theorem isStyled_ofSection (settings : Settings α) {entry : Section δ} (isSaid : IsSaid sayable entry) :
    ∀ primitive ∈ (ofSection settings entry).primitives, primitive.IsStyled sayable := by
  intro primitive member
  cases entry with
  | melody melody source =>
      obtain ⟨dash, labels⟩ := isSaid
      obtain ⟨index, note, place, found, among⟩ := mem_primitivesOf member
      rw [getElem?_placed] at found
      obtain ⟨noted, there, same⟩ := Option.map_eq_some_iff.mp found
      obtain ⟨rfl, -⟩ := Prod.mk.inj same
      obtain ⟨letter, sign⟩ := labels noted (List.mem_of_getElem? there)
      exact isStyled_notePrimitives dash letter sign place _ primitive among
  | chords glyphs source =>
      obtain ⟨⟨glyph, index⟩, placed, rfl⟩ := List.mem_map.mp member
      have shown := List.fst_mem_of_mem_zipIdx placed
      exact ⟨isSaid glyph shown, by simp, by simp, by simp, .inl rfl⟩

end Any

theorem isStyled_complete? {sayable : String → Prop} {primitive : Primitive Coordinate}
    {complete : Primitive Amount} (found : primitive.complete? = some complete) :
    complete.IsStyled sayable = primitive.IsStyled sayable := by
  cases primitive <;>
    simp only [Primitive.complete?, Option.bind_eq_bind, Option.bind_eq_some_iff, Option.pure_def,
      Option.some.injEq] at found
  case glyph g =>
    obtain ⟨x, -, y, -, rfl⟩ := found
    rfl
  case line =>
    obtain ⟨_, -, _, -, _, -, _, -, _, -, rfl⟩ := found
    rfl
  case dot =>
    obtain ⟨_, -, _, -, _, -, rfl⟩ := found
    rfl

theorem mem_of_mapM {β γ : Type} {f : β → Option γ} {items : List β} {images : List γ}
    (mapped : items.mapM f = some images) {image : γ} (member : image ∈ images) :
    ∃ item ∈ items, f item = some image := by
  induction items generalizing images with
  | nil =>
      obtain rfl := Option.some.inj mapped
      cases member
  | cons item items ih =>
      rw [List.mapM_cons] at mapped
      obtain ⟨first, found, rest⟩ := Option.bind_eq_some_iff.mp mapped
      obtain ⟨others, behind, whole⟩ := Option.bind_eq_some_iff.mp rest
      obtain rfl := Option.some.inj whole
      rcases List.mem_cons.mp member with rfl | later
      · exact ⟨item, List.mem_cons_self, found⟩
      · obtain ⟨source, among, same⟩ := ih behind later
        exact ⟨source, List.mem_cons_of_mem _ among, same⟩

theorem isStyled_draw? {sayable : String → Prop} {settings : Settings Amount} {entry : Section δ}
    {drawing : Drawing Amount} (isSaid : IsSaid sayable entry)
    (drawn : draw? settings entry = some drawing) :
    ∀ primitive ∈ drawing.primitives, primitive.IsStyled sayable := by
  intro primitive member
  obtain ⟨canvas, -, rest⟩ := Option.bind_eq_some_iff.mp drawn
  obtain ⟨painted, all, whole⟩ := Option.bind_eq_some_iff.mp rest
  obtain rfl := Option.some.inj whole
  obtain ⟨source, among, found⟩ := mem_of_mapM all member
  rw [isStyled_complete? found]
  exact isStyled_ofSection _ isSaid source among

theorem isPlain_draw? {settings : Settings Amount} {entry : Section δ} {drawing : Drawing Amount}
    (drawn : draw? settings entry = some drawing) :
    ∀ primitive ∈ drawing.primitives, primitive.IsPlain := by
  have isSaid : IsSaid (fun _ => True) entry := by
    cases entry <;> simp [IsSaid]
  exact fun primitive member => isPlain_of_isStyled (isStyled_draw? isSaid drawn primitive member)

end Layout

end Jianpu
