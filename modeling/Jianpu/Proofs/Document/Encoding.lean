import Jianpu.Proofs.Document.Extending
import Jianpu.Proofs.File.Elsewhere

/-! Documents that have no octets. A half of a pair that a content holds is found in every text
that holds the content, with words behind it or in its stored form, so the file of such a
document cannot be written. -/

set_option autoImplicit false

namespace Jianpu

open Text (CodePoint IsSpelled IsText SpellsItself)

/-! Halves in parts of a text -/

namespace Text

/-- A text that holds a half of a pair. -/
def HasHalf (cs : List Char) : Prop :=
  ∃ point ∈ CodePoint.ofSpelling cs, point.isHalf = true

theorem encodingFault?_ne_none_iff {text : String} :
    Utf8.encodingFault? text ≠ none ↔ HasHalf text.toList := by
  rw [ne_eq, encodingFault?_eq_none_iff, HasHalf, codePoints]
  simp

theorem IsText.not_hasHalf {cs : List Char} (text : IsText cs) : ¬ HasHalf cs := by
  obtain ⟨points, whole, rfl⟩ := text
  rintro ⟨point, member, isHalf⟩
  rw [CodePoint.ofSpelling_flatMap_spelling] at member
  rw [whole point member] at isHalf
  cases isHalf

theorem ofSpelling_of_itself {c : Char} (itself : SpellsItself c) (cs : List Char) :
    CodePoint.ofSpelling (c :: cs) = .char c :: CodePoint.ofSpelling cs := by
  have alone : (CodePoint.char c).spelling = [c] :=
    CodePoint.spelling_of_mem itself (by
      rcases CodePoint.spelling_char (c := c) with ⟨-, plain⟩ | ⟨other, -⟩
      · rw [plain]
        exact List.mem_cons_self
      · exact absurd itself other)
  have read := CodePoint.ofSpelling_spelling_append (.char c) cs
  rwa [alone] at read

/-- What stands behind a character that spells itself is read as if it stood alone. -/
theorem ofSpelling_behind {c : Char} (itself : SpellsItself c) (front back : List Char) :
    ∃ points, CodePoint.ofSpelling (front ++ c :: back) =
      points ++ CodePoint.ofSpelling back := by
  induction front using List.twoStepInduction with
  | nil => exact ⟨[.char c], ofSpelling_of_itself itself back⟩
  | singleton d =>
      by_cases marked : d = CodePoint.mark
      · exact ⟨[.char c], by simp [CodePoint.ofSpelling, marked]⟩
      · refine ⟨[(CodePoint.standsFor? d).elim (.char d) .half, .char c], ?_⟩
        rw [List.singleton_append, CodePoint.ofSpelling, if_neg marked,
          ofSpelling_of_itself itself]
        rfl
  | cons_cons d e front ih ihNext =>
      by_cases marked : d = CodePoint.mark
      · obtain ⟨points, read⟩ := ih
        refine ⟨.char e :: points, ?_⟩
        rw [List.cons_append, List.cons_append, CodePoint.ofSpelling, if_pos marked, read]
        rfl
      · obtain ⟨points, read⟩ := ihNext e
        refine ⟨(CodePoint.standsFor? d).elim (.char d) .half :: points, ?_⟩
        rw [List.cons_append] at read
        rw [List.cons_append, List.cons_append, CodePoint.ofSpelling, if_neg marked, read]
        rfl

theorem ofSpelling_flatMap_append (points : List CodePoint) (back : List Char) :
    CodePoint.ofSpelling (points.flatMap CodePoint.spelling ++ back) =
      points ++ CodePoint.ofSpelling back := by
  induction points with
  | nil => rfl
  | cons point points ih =>
      rw [List.flatMap_cons, List.append_assoc, CodePoint.ofSpelling_spelling_append, ih]
      rfl

/-- A half in a spelled part is one of the whole text. -/
theorem HasHalf.before {cs : List Char} (half : HasHalf cs) (spelled : IsSpelled cs)
    (back : List Char) : HasHalf (cs ++ back) := by
  obtain ⟨points, -, rfl⟩ := spelled
  obtain ⟨point, member, isHalf⟩ := half
  rw [CodePoint.ofSpelling_flatMap_spelling] at member
  refine ⟨point, ?_, isHalf⟩
  rw [ofSpelling_flatMap_append]
  exact List.mem_append_left _ member

theorem HasHalf.behind {cs : List Char} (half : HasHalf cs) {c : Char} (itself : SpellsItself c)
    (front : List Char) : HasHalf (front ++ c :: cs) := by
  obtain ⟨point, member, isHalf⟩ := half
  obtain ⟨points, read⟩ := ofSpelling_behind itself front cs
  refine ⟨point, ?_, isHalf⟩
  rw [read]
  exact List.mem_append_right _ member

theorem hasHalf_of_append {front back : List Char} (spelled : IsSpelled front)
    (itself : ∀ c ∈ back, SpellsItself c) (half : HasHalf (front ++ back)) : HasHalf front := by
  obtain ⟨points, -, rfl⟩ := spelled
  obtain ⟨point, member, isHalf⟩ := half
  rw [ofSpelling_flatMap_append] at member
  rcases List.mem_append.mp member with among | behind
  · exact ⟨point, by rwa [CodePoint.ofSpelling_flatMap_spelling], isHalf⟩
  · exact absurd ⟨point, behind, isHalf⟩ (isText_of_spellsItself itself).not_hasHalf

end Text

/-! Halves in stored forms -/

namespace Json

open Text (HasHalf)

theorem exists_escaped (points : List CodePoint) :
    ∃ others : List CodePoint,
      (points.flatMap CodePoint.spelling).flatMap escapedChar =
        others.flatMap CodePoint.spelling ∧
      ∀ point ∈ points, point.isHalf = true → point ∈ others := by
  induction points with
  | nil => exact ⟨[], rfl, by simp⟩
  | cons point points ih =>
      obtain ⟨others, read, kept⟩ := ih
      cases point with
      | half index =>
          have high : CodePoint.firstStandIn ≤ (CodePoint.standIn index).toNat := by
            rw [CodePoint.toNat_standIn]
            omega
          refine ⟨.half index :: others, ?_, ?_⟩
          · rw [List.flatMap_cons, List.flatMap_append, read, List.flatMap_cons]
            simp [CodePoint.spelling, escapedChar_of_ge high]
          · simp only [List.mem_cons]
            rintro other (rfl | among) otherHalf
            · exact .inl rfl
            · exact .inr (kept other among otherHalf)
      | char c =>
          have plain : (CodePoint.char c).isHalf = false := rfl
          obtain ⟨⟨escaped, -, first⟩, -⟩ := isFileText_escapedPoint plain
          refine ⟨escaped ++ others, ?_, ?_⟩
          · rw [List.flatMap_cons, List.flatMap_append, read, first, List.flatMap_append]
          · simp only [List.mem_cons, List.mem_append]
            rintro other (rfl | among) otherHalf
            · cases otherHalf
            · exact .inr (kept other among otherHalf)

/-- A half stays a half when a string is written, and everything else stays spelled. -/
theorem hasHalf_escaped {cs : List Char} (spelled : IsSpelled cs) (half : HasHalf cs) :
    IsSpelled (cs.flatMap escapedChar) ∧ HasHalf (cs.flatMap escapedChar) := by
  obtain ⟨points, -, rfl⟩ := spelled
  obtain ⟨point, member, isHalf⟩ := half
  rw [CodePoint.ofSpelling_flatMap_spelling] at member
  obtain ⟨others, read, kept⟩ := exists_escaped points
  refine ⟨⟨others, by simp, read⟩, point, ?_, isHalf⟩
  rw [read, CodePoint.ofSpelling_flatMap_spelling]
  exact kept point member isHalf

theorem hasHalf_of_isInfix {s : String} {cs : List Char} (spelled : IsSpelled s.toList)
    (half : HasHalf s.toList) (inside : stringChars s <:+: cs) : HasHalf cs := by
  obtain ⟨front, back, rfl⟩ := inside
  obtain ⟨escapedSpelled, escapedHalf⟩ := hasHalf_escaped spelled half
  have quote : SpellsItself '"' := Text.spellsItself_of_lt (by decide)
  have inner := (escapedHalf.before escapedSpelled (['"'] ++ back)).behind quote front
  simpa [stringChars] using inner

theorem chars_isInfix_items {item : Json} {items : List Json} (member : item ∈ items) :
    chars item <:+: itemsChars items := by
  induction items with
  | nil => simp at member
  | cons first items ih =>
      cases items with
      | nil =>
          obtain rfl := List.mem_singleton.mp member
          exact List.infix_rfl
      | cons next items =>
          rw [itemsChars_cons_cons]
          rcases List.mem_cons.mp member with rfl | among
          · exact (List.prefix_append _ _).isInfix
          · exact (ih among).trans ⟨chars first ++ [',', ' '], [], by simp⟩

theorem chars_isInfix_members {name : String} {value : Json} {members : List (String × Json)}
    (member : (name, value) ∈ members) : chars value <:+: membersChars members := by
  induction members with
  | nil => simp at member
  | cons first members ih =>
      obtain ⟨firstName, firstValue⟩ := first
      cases members with
      | nil =>
          obtain ⟨rfl, rfl⟩ := Prod.mk.inj (List.mem_singleton.mp member)
          rw [membersChars_singleton]
          exact ⟨stringChars name ++ [':', ' '], [], by simp⟩
      | cons next members =>
          rw [membersChars_cons_cons]
          rcases List.mem_cons.mp member with same | among
          · obtain ⟨rfl, rfl⟩ := Prod.mk.inj same
            exact ⟨stringChars name ++ [':', ' '], ',' :: ' ' :: membersChars (next :: members),
              by simp⟩
          · exact (ih among).trans
              ⟨stringChars firstName ++ ':' :: ' ' :: (chars firstValue ++ [',', ' ']), [], by simp⟩

theorem items_isInfix (items : List Json) : itemsChars items <:+: chars (.array items) :=
  ⟨['['], [']'], by simp [chars]⟩

theorem members_isInfix (members : List (String × Json)) :
    membersChars members <:+: chars (.object members) :=
  ⟨['\x7b'], ['\x7d'], by simp [chars]⟩

end Json

theorem Envelope.content_isInfix {envelope : Envelope} {block : Block}
    (member : block ∈ envelope.blocks) :
    Json.stringChars block.content <:+: envelope.encode.toList := by
  have content : ("content", Json.string block.content) ∈
      [("type", .string block.kind.name), ("content", .string block.content)] := by
    simp
  have written : Json.chars (.string block.content) <:+: Json.chars (blockJson block) :=
    (Json.chars_isInfix_members content).trans (Json.members_isInfix _)
  have among : Json.chars (blockJson block) <:+:
      Json.chars (.array (envelope.blocks.map blockJson)) :=
    (Json.chars_isInfix_items (List.mem_map_of_mem member)).trans (Json.items_isInfix _)
  have inside : Json.chars (.array (envelope.blocks.map blockJson)) <:+:
      Json.chars envelope.toJson := by
    unfold toJson
    refine List.IsInfix.trans ?_ (Json.members_isInfix _)
    exact Json.chars_isInfix_members (List.mem_append_left _ (List.mem_append_left _
      List.mem_cons_self))
  have whole := written.trans (among.trans inside)
  rwa [Json.chars, ← String.toList_ofList (l := Json.chars envelope.toJson)] at whole

namespace Document

open Text (HasHalf)

section Words

variable {words : List String} (areWords : ∀ word ∈ words, IsWord word)

include areWords

theorem hasHalf_extended {content : String} (spelled : IsSpelled content.toList)
    (half : HasHalf content.toList) :
    IsSpelled (extended content words).toList ∧ HasHalf (extended content words).toList := by
  cases words with
  | nil => exact ⟨spelled, half⟩
  | cons word words =>
      obtain ⟨blanks, split, blank⟩ := Text.trimmedEnd_append content.toList
      have keptSpelled := (Text.isPart_trimmedEnd content.toList).spellsOnly spelled
      have keptHalf : HasHalf (Text.trimmedEnd content.toList) := by
        rw [split] at half
        exact Text.hasHalf_of_append keptSpelled
          (fun c member => Text.spellsItself_of_isBlank (blank c member)) half
      have some : ¬ (Text.trimEnd content).isEmpty = true := by
        rw [String.isEmpty_iff, ← String.toList_inj, Text.trimEnd, String.toList_ofList]
        intro empty
        obtain ⟨point, member, -⟩ := keptHalf
        simp [empty, CodePoint.ofSpelling] at member
      have space : IsText [' '] := (Text.isFileText_of_plain (by decide)).1
      have line := isLine_intercalate areWords (List.cons_ne_nil word words)
      have behind : IsText (" " ++ " ".intercalate (word :: words)).toList := by
        rw [String.toList_append]
        exact space.append line.kept.1
      rw [extended_cons, lead, if_neg some, Text.trimEnd, String.append_assoc,
        String.toList_append, String.toList_ofList]
      exact ⟨keptSpelled.append behind.isSpelled, keptHalf.before keptSpelled _⟩

/-- A half in a document is still there when words are appended. -/
theorem Extends.hasHalf {blocks longer : List Block} (longerBlocks : Extends words blocks longer)
    (spelled : ∀ block ∈ blocks, IsSpelled block.content.toList) {block : Block}
    (member : block ∈ blocks) (half : HasHalf block.content.toList) :
    ∃ other ∈ longer, IsSpelled other.content.toList ∧ HasHalf other.content.toList := by
  cases longerBlocks with
  | @last before after content others =>
      rcases List.mem_append.mp member with early | late
      · exact ⟨block, List.mem_append_left _ early, spelled block member, half⟩
      rcases List.mem_cons.mp late with rfl | late
      · exact ⟨⟨.melody, extended content words⟩, by simp,
          hasHalf_extended areWords (spelled _ member) half⟩
      · exact ⟨block, by simp [late], spelled block member, half⟩
  | added => exact ⟨block, List.mem_append_left _ member, spelled block member, half⟩

end Words

section Read

variable {δ : Type} [Illegible δ] {reach : Envelope.Reach} {tree : FileTree δ} {path : Path}
  {document : Document} (read : readFile reach tree path {} = .ok document)

include read

/-- What a stored form holds has a known kind and is spelled; what a text holds is melody. -/
theorem blocks_of_readFile :
    isStoredForm path = true ∧ (∀ block ∈ document.blocks,
        (block.kind = .melody ∨ block.kind = .chords) ∧ IsSpelled block.content.toList) ∨
      isStoredForm path = false ∧
        ∀ block ∈ document.blocks, block.kind = .melody ∧ IsText block.content.toList := by
  obtain ⟨text, reads, holds⟩ := readFile_eq_ok_iff.mp read
  have kept := FileTree.isFileText_of_readText reads
  rcases ofFileText?_eq_some holds with ⟨form, rfl⟩ | ⟨plain, rfl⟩
  · refine .inl ⟨form, fun block member => ?_⟩
    exact ⟨(Envelope.regular_decode text).knownKinds block member,
      Envelope.spelled_decode kept.1.isSpelled block member⟩
  · rw [ofText_eq_melodies]
    refine .inr ⟨plain, fun block member => ?_⟩
    dsimp only [melodies] at member
    split at member
    · obtain rfl := List.mem_singleton.mp member
      exact ⟨rfl, Text.spellsOnly_nil⟩
    · obtain ⟨content, among, rfl⟩ := List.mem_map.mp member
      rw [String.toList_ofList]
      exact ⟨rfl, ((Text.paragraph_of_mem among).2.isFileText kept).1⟩

theorem known_of_readFile :
    ∀ block ∈ document.blocks, block.kind = .melody ∨ block.kind = .chords := by
  intro block member
  rcases blocks_of_readFile read with ⟨-, stored⟩ | ⟨-, text⟩
  · exact (stored block member).1
  · exact .inl (text block member).1

theorem spelled_of_readFile : ∀ block ∈ document.blocks, IsSpelled block.content.toList := by
  intro block member
  rcases blocks_of_readFile read with ⟨-, stored⟩ | ⟨-, text⟩
  · exact (stored block member).2
  · exact (text block member).2.isSpelled

/-- A document that holds a half was read from a stored form. -/
theorem isStoredForm_of_hasHalf {block : Block} (member : block ∈ document.blocks)
    (half : HasHalf block.content.toList) : isStoredForm path = true := by
  rcases blocks_of_readFile read with ⟨form, -⟩ | ⟨-, text⟩
  · exact form
  · exact absurd half (text block member).2.not_hasHalf

end Read

/-- The stored form of a document that holds a half has no octets. -/
theorem writeFile_of_hasHalf {δ : Type} {tree : FileTree δ} {path : Path} {document : Document}
    (writable : tree.IsWritable path) (form : isStoredForm path = true) {block : Block}
    (member : block ∈ document.blocks) (spelled : IsSpelled block.content.toList)
    (half : HasHalf block.content.toList) :
    ∃ fault after,
      document.writeFile tree path = (.error ⟨.unencodable fault, path.text⟩, after) := by
  have inside : Json.stringChars block.content <:+: document.envelope.encode.toList :=
    Envelope.content_isInfix member
  have wholeHalf := Json.hasHalf_of_isInfix spelled half inside
  obtain ⟨place, found⟩ := writable
  obtain ⟨fault, refused⟩ :=
    Option.ne_none_iff_exists'.mp (Text.encodingFault?_ne_none_iff.mpr wholeHalf)
  have encoded : Text.Utf8.encode (document.fileText path) = .error fault := by
    rw [fileText_of_stored form, Text.Utf8.encode, refused]
  exact ⟨fault, _, FileTree.writeText_of_fault found encoded⟩

end Document

end Jianpu
