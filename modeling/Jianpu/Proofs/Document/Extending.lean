import Jianpu.Proofs.Document.File
import Jianpu.Proofs.Notation.Writing

/-! Words appended to a block one after the other, each behind a single space.
What a file can hold it can still hold with them. -/

set_option autoImplicit false

namespace Jianpu

open Text (IsFileText IsParagraph IsPart IsText IsTrimmed IsUnbroken isBlank trimmedEnd)

/-! Trimmed and unbroken texts -/

namespace Text

variable {cs front back : List Char}

theorem isPart_trimmedEnd (cs : List Char) : IsPart (trimmedEnd cs) cs := by
  obtain ⟨blanks, split, blank⟩ := trimmedEnd_append cs
  refine ⟨[], blanks, by simpa using split, by simp, ?_⟩
  intro c first
  exact spellsItself_of_isBlank (blank c (List.mem_of_head? first))

theorem IsUnbroken.append (unbroken : IsUnbroken front) (noFeed : '\n' ∉ back) :
    IsUnbroken (front ++ back) := by
  intro before after split feed
  rcases List.append_eq_append_iff.mp split with ⟨middle, -, inBack⟩ | ⟨middle, inFront, behind⟩
  · exact noFeed (by simp [inBack])
  · cases middle with
    | nil =>
        have same : back = '\n' :: after := behind.symm
        exact noFeed (same ▸ List.mem_cons_self)
    | cons c middle =>
        obtain ⟨rfl, same⟩ := List.cons.inj behind
        rw [show after = middle ++ back from same, List.takeWhile_append] at feed
        split at feed
        · rename_i all
          have whole := (List.takeWhile_prefix isBlank).eq_of_length all
          rcases List.mem_append.mp feed with feed | feed
          · exact unbroken before middle inFront (whole.symm ▸ feed)
          · exact noFeed ((List.takeWhile_prefix _).subset feed)
        · exact unbroken before middle inFront feed

end Text

namespace Document

/-- A word: some characters, none of them blank, that a file keeps as they are. -/
structure IsWord (word : String) : Prop where
  nonempty : word.toList ≠ []
  solid : ∀ c ∈ word.toList, isBlank c = false
  kept : IsFileText word.toList

/-- What a content puts before a word: itself without the blanks at its end, and then a space. -/
def lead (content : String) : String :=
  let kept := Text.trimEnd content
  if kept.isEmpty then "" else kept ++ " "

/-- A content with words behind it, all of them one space apart. -/
def extended (content : String) (words : List String) : String :=
  if words.isEmpty then content else lead content ++ " ".intercalate words

theorem IsWord.trim {word : String} (isWord : IsWord word) : Text.trim word = word := by
  rw [Text.trim, Text.trimmed_of_solid isWord.solid, String.ofList_toList]

theorem IsWord.trimEnd_append {word : String} (isWord : IsWord word) (lead : String) :
    Text.trimEnd (lead ++ word) = lead ++ word := by
  have ends : ∀ c ∈ (lead.toList ++ word.toList).getLast?, isBlank c = false := by
    intro c last
    rw [List.getLast?_append, List.getLast?_eq_some_getLast isWord.nonempty, Option.some_or] at last
    cases last
    exact isWord.solid _ (List.getLast_mem isWord.nonempty)
  have kept := Text.trimmedEnd_of_ends ends (by simp : ∀ c ∈ [], isBlank c = true)
  rw [List.append_nil, ← String.toList_append] at kept
  rw [Text.trimEnd, kept, String.ofList_toList]

theorem extended_cons (content word : String) (words : List String) :
    extended content (word :: words) = lead content ++ " ".intercalate (word :: words) := rfl

theorem IsWord.appended {word : String} (isWord : IsWord word) (content : String) :
    Document.appended content word = lead content ++ word := by
  rw [Document.appended, isWord.trim, lead]
  split <;> simp

theorem IsWord.lead_appended {word : String} (isWord : IsWord word) (content : String) :
    lead (Document.appended content word) = lead content ++ word ++ " " := by
  have some : ¬ (lead content ++ word).isEmpty = true := by
    rw [String.isEmpty_iff, ← String.toList_inj, String.toList_append]
    simp [isWord.nonempty]
  rw [isWord.appended, lead, isWord.trimEnd_append, if_neg some]

/-- Words that are appended one after the other stand one space apart. -/
theorem foldl_appended {words : List String} (areWords : ∀ word ∈ words, IsWord word)
    (content : String) : words.foldl appended content = extended content words := by
  induction words generalizing content with
  | nil => rfl
  | cons word words ih =>
      have isWord := areWords word List.mem_cons_self
      have others := ih fun other among => areWords other (List.mem_cons_of_mem word among)
      rw [List.foldl_cons, others]
      cases words with
      | nil => rw [extended_cons, String.intercalate_singleton, ← isWord.appended]; rfl
      | cons next words =>
          rw [extended_cons, extended_cons, isWord.lead_appended, String.intercalate_cons_cons]
          simp only [String.append_assoc]

/-! Extended contents -/

/-- Words with a space between one and the next make up a paragraph of one line. -/
structure IsLine (line : List Char) : Prop where
  nonempty : line ≠ []
  trimmed : IsTrimmed line
  noFeed : '\n' ∉ line
  kept : IsFileText line

theorem IsWord.isLine {word : String} (isWord : IsWord word) : IsLine word.toList := by
  refine ⟨isWord.nonempty, Text.isTrimmed_of_solid isWord.solid, ?_, isWord.kept⟩
  intro feed
  have solid := isWord.solid '\n' feed
  rw [Text.isBlank_lineFeed] at solid
  cases solid

theorem isLine_intercalate {words : List String} (areWords : ∀ word ∈ words, IsWord word)
    (someWord : words ≠ []) : IsLine (" ".intercalate words).toList := by
  induction words with
  | nil => exact absurd rfl someWord
  | cons word words ih =>
      have first := (areWords word List.mem_cons_self).isLine
      cases words with
      | nil => rwa [String.intercalate_singleton]
      | cons next words =>
          have rest := ih (fun other among => areWords other (List.mem_cons_of_mem word among))
            (List.cons_ne_nil next words)
          have space : IsFileText [' '] := Text.isFileText_of_plain (by decide)
          have spelled : (" ".intercalate (word :: next :: words)).toList =
              word.toList ++ [' '] ++ (" ".intercalate (next :: words)).toList := by
            rw [String.intercalate_cons_cons, String.toList_append, String.toList_append]
            rfl
          rw [spelled]
          refine ⟨by simp, first.trimmed.around first.nonempty _ rest.trimmed rest.nonempty, ?_,
            (first.kept.append space).append rest.kept⟩
          have noFeeds := not_or.mpr ⟨first.noFeed, rest.noFeed⟩
          simpa only [List.mem_append, List.mem_singleton, Char.reduceEq, or_false] using noFeeds

theorem IsLine.isParagraph {line : List Char} (isLine : IsLine line) : IsParagraph line := by
  refine ⟨isLine.nonempty, isLine.trimmed, ?_⟩
  have unbroken := Text.isUnbroken_nil.append isLine.noFeed
  rwa [List.nil_append] at unbroken

theorem isText_lead {content : String} (text : IsText content.toList) :
    IsText (lead content).toList := by
  have kept : IsText (Text.trimEnd content).toList := by
    rw [Text.trimEnd, String.toList_ofList]
    exact (Text.isPart_trimmedEnd content.toList).spellsOnly text
  have space : IsText [' '] := (Text.isFileText_of_plain (by decide)).1
  rw [lead]
  split
  · exact Text.spellsOnly_nil
  · rw [String.toList_append]
    exact kept.append space

theorem lead_of_isParagraph {content : String} (paragraph : IsParagraph content.toList) :
    lead content = content ++ " " := by
  have whole : Text.trimEnd content = content := by
    have kept := Text.trimmedEnd_of_ends paragraph.trimmed.ends
      (by simp : ∀ c ∈ [], isBlank c = true)
    rw [List.append_nil] at kept
    rw [Text.trimEnd, kept, String.ofList_toList]
  have some : ¬ content.isEmpty = true := by
    rw [String.isEmpty_iff, ← String.toList_inj]
    exact paragraph.nonempty
  rw [lead, whole, if_neg some]

theorem isText_extended {content : String} (text : IsText content.toList) {words : List String}
    (areWords : ∀ word ∈ words, IsWord word) : IsText (extended content words).toList := by
  cases words with
  | nil => exact text
  | cons word words =>
      rw [extended_cons, String.toList_append]
      exact (isText_lead text).append
        (isLine_intercalate areWords (List.cons_ne_nil word words)).kept.1

theorem isParagraph_extended {content : String} (paragraph : IsParagraph content.toList)
    (kept : IsFileText content.toList) {words : List String}
    (areWords : ∀ word ∈ words, IsWord word) :
    IsParagraph (extended content words).toList ∧ IsFileText (extended content words).toList := by
  cases words with
  | nil => exact ⟨paragraph, kept⟩
  | cons word words =>
      have line := isLine_intercalate areWords (List.cons_ne_nil word words)
      have space : IsFileText [' '] := Text.isFileText_of_plain (by decide)
      have spelled : (extended content (word :: words)).toList =
          content.toList ++ [' '] ++ (" ".intercalate (word :: words)).toList := by
        rw [extended_cons, lead_of_isParagraph paragraph, String.toList_append,
          String.toList_append]
        rfl
      rw [spelled]
      refine ⟨⟨by simp, paragraph.trimmed.around paragraph.nonempty _ line.trimmed line.nonempty,
        ?_⟩, (kept.append space).append line.kept⟩
      exact (paragraph.unbroken.append (by simp)).append line.noFeed

theorem extended_empty (words : List String) : extended "" words = " ".intercalate words := by
  cases words with
  | nil => rfl
  | cons word words =>
      have nothing : lead "" = "" := by decide
      rw [extended_cons, nothing, String.empty_append]

/-! Extended documents -/

/-- Words that are appended to blocks: to the last one of melody, or as a new one. -/
inductive Extends (words : List String) : List Block → List Block → Prop where
  | last {before after : List Block} {content : String} :
      (∀ block ∈ after, block.kind ≠ .melody) →
      Extends words (before ++ ⟨.melody, content⟩ :: after)
        (before ++ ⟨.melody, extended content words⟩ :: after)
  | added {blocks : List Block} : (∀ block ∈ blocks, block.kind ≠ .melody) →
      Extends words blocks (blocks ++ [⟨.melody, " ".intercalate words⟩])

theorem Extends.ne_nil {words : List String} {blocks longer : List Block}
    (longerBlocks : Extends words blocks longer) : longer ≠ [] := by
  cases longerBlocks with
  | last | added => simp

/-- What holds of all blocks holds of them still if words at the end of a melody keep it. -/
theorem Extends.forall {words : List String} {blocks longer : List Block}
    (longerBlocks : Extends words blocks longer) {good : Block → Prop}
    (all : ∀ block ∈ blocks, good block)
    (changed : ∀ content, good ⟨.melody, content⟩ → good ⟨.melody, extended content words⟩)
    (new : (∀ block ∈ blocks, block.kind ≠ .melody) → good ⟨.melody, " ".intercalate words⟩) :
    ∀ block ∈ longer, good block := by
  intro block member
  cases longerBlocks with
  | last others =>
      rcases List.mem_append.mp member with early | late
      · exact all block (List.mem_append_left _ early)
      rcases List.mem_cons.mp late with rfl | late
      · exact changed _ (all _ (by simp))
      · exact all block (by simp [late])
  | added others =>
      rcases List.mem_append.mp member with early | last
      · exact all block early
      · obtain rfl := List.mem_singleton.mp last
        exact new others

/-- Where a melody stands last, the words are appended to it. -/
theorem Extends.eq_of_last {words : List String} {before longer : List Block} {content : String}
    (longerBlocks : Extends words (before ++ [⟨.melody, content⟩]) longer) :
    longer = before ++ [⟨.melody, extended content words⟩] := by
  generalize whole : before ++ [(⟨.melody, content⟩ : Block)] = blocks at longerBlocks
  cases longerBlocks with
  | @last earlier after other others =>
      rcases List.eq_nil_or_concat after with rfl | ⟨between, block, split⟩
      · obtain ⟨rfl, same⟩ := List.append_inj' whole rfl
        cases same
        rfl
      · rw [List.concat_eq_append] at split
        subst split
        have longerWhole : before ++ [(⟨.melody, content⟩ : Block)] =
            (earlier ++ ⟨.melody, other⟩ :: between) ++ [block] := by
          simpa using whole
        obtain ⟨-, same⟩ := List.append_inj' longerWhole rfl
        obtain rfl := List.singleton_inj.mp same
        exact absurd rfl (others ⟨.melody, content⟩ (by simp))
  | added others =>
      subst whole
      exact absurd rfl (others ⟨.melody, content⟩ (by simp))

/-- Blocks that fit a file fit it with words appended to them. -/
theorem FitsFile.extends {path : Path} {blocks longer : List Block} (fits : FitsFile path blocks)
    {words : List String} (areWords : ∀ word ∈ words, IsWord word)
    (longerBlocks : Extends words blocks longer) : FitsFile path longer := by
  cases fits with
  | stored form _ known texts =>
      have joined : IsText (" ".intercalate words).toList := by
        rw [← extended_empty]
        exact isText_extended Text.spellsOnly_nil areWords
      exact .stored form longerBlocks.ne_nil
        (longerBlocks.forall known (fun _ _ => .inl rfl) fun _ => .inl rfl)
        (longerBlocks.forall texts (fun _ text => isText_extended text areWords) fun _ => joined)
  | paragraphs plain someBlock fit =>
      refine .paragraphs plain longerBlocks.ne_nil (longerBlocks.forall fit ?_ ?_)
      · rintro content ⟨-, paragraph, kept⟩
        exact ⟨rfl, isParagraph_extended paragraph kept areWords⟩
      · intro others
        obtain ⟨block, member⟩ := List.exists_mem_of_ne_nil blocks someBlock
        exact absurd (fit block member).1 (others block member)
  | nothing plain =>
      have alone : longer = [] ++ [⟨.melody, extended "" words⟩] := longerBlocks.eq_of_last
      rw [alone, extended_empty, List.nil_append]
      cases words with
      | nil => exact .nothing plain
      | cons word words =>
          have line := isLine_intercalate areWords (List.cons_ne_nil word words)
          refine .paragraphs plain (List.cons_ne_nil _ _) ?_
          intro block member
          obtain rfl := List.mem_singleton.mp member
          exact ⟨rfl, line.isParagraph, line.kept⟩

end Document

end Jianpu
