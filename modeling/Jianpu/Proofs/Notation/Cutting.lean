import Jianpu.Notation.Token
import Jianpu.Proofs.Text.Run
import Mathlib.Tactic.IntervalCases

/-! How a melody text falls apart: gaps and tokens by turns, from a gap to a
gap. The conditions speak of the characters around a place only, never of the
reader, so they can be checked against the written grammar. -/

set_option autoImplicit false

namespace Jianpu.Notation

open Text (takeWhile_run dropWhile_stops)

def barGlyphs : List Char := ['|', ':']

def degreeDigits : List Char := ['1', '2', '3', '4', '5', '6', '7']

def noteModifiers : List Char := ['b', '#', 'n', '\'', '"', ',', '.', '_', '=', '-']

/-- A maximal run of bar glyphs between what is written before and after it. -/
def IsBarRun (before marker after : List Char) : Prop :=
  marker ≠ [] ∧ (∀ c ∈ marker, c ∈ barGlyphs) ∧
    (∀ c ∈ before.getLast?, c ∉ barGlyphs) ∧ ∀ c ∈ after.head?, c ∉ barGlyphs

/-- Brackets around at least one character, closed at the first chance. -/
def IsGroup (marker : List Char) : Prop :=
  ∃ inside, marker = '[' :: inside ++ [']'] ∧ inside ≠ [] ∧ ']' ∉ inside

/-- A degree digit with the maximal run of modifiers that follows it. -/
def IsNote (digit : Char) (modifiers after : List Char) : Prop :=
  digit ∈ degreeDigits ∧ (∀ c ∈ modifiers, c ∈ noteModifiers) ∧
    ∀ c ∈ after.head?, c ∉ noteModifiers

/-- A token where it stands in a text. -/
def Token.Stands (before after : List Char) : Token → Prop
  | .bar marker => IsBarRun before marker after ∨ IsGroup marker
  | .note digit modifiers => IsNote digit modifiers after

/-- A character that starts no token in front of `after`. An opening bracket is
one when a closing bracket follows at once or never. -/
def Skippable (c : Char) (after : List Char) : Prop :=
  c ∉ barGlyphs ∧ c ∉ degreeDigits ∧ (c = '[' → after.head? = some ']' ∨ ']' ∉ after)

/-- Characters none of which starts a token, with `after` following them. -/
def IsGap : (gap after : List Char) → Prop
  | [], _ => True
  | c :: gap, after => Skippable c (gap ++ after) ∧ IsGap gap after

/-- A gap and the token after it. -/
structure Piece where
  gap : List Char
  token : Token

def Piece.chars (piece : Piece) : List Char :=
  piece.gap ++ piece.token.chars

/-- The text of pieces and the last gap. -/
def written (pieces : List Piece) (last : List Char) : List Char :=
  pieces.flatMap Piece.chars ++ last

@[simp] theorem written_nil (last : List Char) : written [] last = last := rfl

@[simp] theorem written_cons (piece : Piece) (pieces : List Piece) (last : List Char) :
    written (piece :: pieces) last =
      piece.gap ++ (piece.token.chars ++ written pieces last) := by
  simp [written, Piece.chars]

/-- Pieces and a last gap, each as the grammar wants it at its place. -/
def IsCut : (before : List Char) → List Piece → (last : List Char) → Prop
  | _, [], last => IsGap last []
  | before, piece :: pieces, last =>
      IsGap piece.gap (piece.token.chars ++ written pieces last) ∧
        piece.token.Stands (before ++ piece.gap) (written pieces last) ∧
        IsCut (before ++ piece.chars) pieces last

/-! Character classes -/

theorem isBarGlyph_iff {c : Char} : isBarGlyph c = true ↔ c ∈ barGlyphs := by
  simp [isBarGlyph, barGlyphs]

theorem isModifier_iff {c : Char} : isModifier c = true ↔ c ∈ noteModifiers := by
  simp [isModifier, noteModifiers]

theorem isDegreeDigit_iff {c : Char} : isDegreeDigit c = true ↔ c ∈ degreeDigits := by
  constructor
  · intro inside
    have bounds : '1' ≤ c ∧ c ≤ '7' := by simpa [isDegreeDigit] using inside
    have lower : 49 ≤ c.toNat := bounds.1
    have upper : c.toNat ≤ 55 := bounds.2
    rw [← Char.ofNat_toNat c]
    generalize c.toNat = n at lower upper
    interval_cases n <;> decide
  · intro member
    have known : ∀ digit ∈ degreeDigits, isDegreeDigit digit = true := by
      simp [degreeDigits, isDegreeDigit]
    exact known c member

theorem degreeDigit_not_bar : ∀ c ∈ degreeDigits, c ∉ barGlyphs := by
  simp [degreeDigits, barGlyphs]

theorem degreeDigit_not_modifier : ∀ c ∈ degreeDigits, c ∉ noteModifiers := by
  simp [degreeDigits, noteModifiers]

theorem modifier_not_bar : ∀ c ∈ noteModifiers, c ∉ barGlyphs := by
  simp [noteModifiers, barGlyphs]

/-! Reading one token -/

theorem groupBody?_eq_some_iff {cs inside rest : List Char} :
    groupBody? cs = some (inside, rest) ↔
      cs = inside ++ ']' :: rest ∧ inside ≠ [] ∧ ']' ∉ inside := by
  constructor
  · intro found
    unfold groupBody? at found
    dsimp only at found
    split at found
    · cases found
    · rename_i closing remainder dropped
      split at found
      · cases found
      · rename_i nonempty
        cases found
        have stop : (closing != ']') = false :=
          dropWhile_stops closing (by rw [dropped]; rfl)
        have closes : closing = ']' := by simpa using stop
        refine ⟨?_, by simpa using nonempty, ?_⟩
        · have parts := List.takeWhile_append_dropWhile (p := (· != ']')) (l := cs)
          rw [dropped, closes] at parts
          exact parts.symm
        · intro member
          simpa using List.mem_takeWhile_imp member
  · rintro ⟨rfl, nonempty, unclosed⟩
    have inner : ∀ c ∈ inside, (c != ']') = true := by
      intro c member
      have different : c ≠ ']' := fun same => unclosed (same ▸ member)
      simpa using different
    have stops : ∀ c ∈ (']' :: rest).head?, (c != ']') = false := by simp
    obtain ⟨taken, dropped⟩ := takeWhile_run inner stops
    unfold groupBody?
    simp [taken, dropped, nonempty]

theorem groupBody?_eq_none_iff {cs : List Char} :
    groupBody? cs = none ↔ cs.head? = some ']' ∨ ']' ∉ cs := by
  constructor
  · intro absent
    by_cases closed : ']' ∈ cs
    · left
      obtain ⟨inside, rest, rfl, unclosed⟩ := List.eq_append_cons_of_mem closed
      cases inside with
      | nil => rfl
      | cons c inside =>
          have found : groupBody? (c :: inside ++ ']' :: rest) = some (c :: inside, rest) :=
            groupBody?_eq_some_iff.mpr ⟨rfl, by simp, unclosed⟩
          rw [found] at absent
          cases absent
    · exact .inr closed
  · intro unopened
    cases found : groupBody? cs with
    | none => rfl
    | some body =>
        obtain ⟨inside, rest⟩ := body
        obtain ⟨rfl, nonempty, unclosed⟩ := groupBody?_eq_some_iff.mp found
        rcases unopened with atOnce | never
        · cases inside with
          | nil => exact absurd rfl nonempty
          | cons c inside =>
              have first : c = ']' := by simpa using atOnce
              exact absurd (first ▸ List.mem_cons_self) unclosed
        · exact absurd (by simp) never

/-- No token starts exactly at the skippable characters. -/
theorem token?_eq_none_iff {c : Char} {after : List Char} :
    token? (c :: after) = none ↔ Skippable c after := by
  unfold Skippable
  rw [← isBarGlyph_iff, ← isDegreeDigit_iff, ← groupBody?_eq_none_iff]
  by_cases bar : isBarGlyph c = true
  · simp [token?, bar]
  · by_cases opening : c = '['
    · subst opening
      have notDigit : isDegreeDigit '[' = false := by decide
      simp [token?, bar, notDigit]
    · simp [token?, bar, opening]

theorem stands_of_token? {cs rest : List Char} {found : Token}
    (read : token? cs = some (found, rest)) :
    cs = found.chars ++ rest ∧ found.Stands [] rest := by
  cases cs with
  | nil => simp [token?] at read
  | cons c cs =>
      simp only [token?] at read
      split at read
      · rename_i bar
        cases read
        refine ⟨by simp [Token.chars], .inl ⟨by simp, ?_, by simp, ?_⟩⟩
        · intro glyph member
          rcases List.mem_cons.mp member with rfl | member
          · exact isBarGlyph_iff.mp bar
          · exact isBarGlyph_iff.mp (List.mem_takeWhile_imp member)
        · intro next first
          rw [← isBarGlyph_iff, dropWhile_stops next first]
          simp
      · split at read
        · rename_i opening
          obtain ⟨⟨inside, remainder⟩, body, result⟩ := Option.map_eq_some_iff.mp read
          cases result
          obtain ⟨rfl, nonempty, unclosed⟩ := groupBody?_eq_some_iff.mp body
          exact ⟨by simp [Token.chars, opening], .inr ⟨inside, rfl, nonempty, unclosed⟩⟩
        · split at read
          · rename_i digit
            cases read
            refine ⟨by simp [Token.chars], isDegreeDigit_iff.mp digit, ?_, ?_⟩
            · intro mark member
              exact isModifier_iff.mp (List.mem_takeWhile_imp member)
            · intro next first
              rw [← isModifier_iff, dropWhile_stops next first]
              simp
          · cases read

theorem token?_of_stands {rest : List Char} {found : Token} (stands : found.Stands [] rest) :
    token? (found.chars ++ rest) = some (found, rest) := by
  cases found with
  | bar marker =>
      rcases stands with ⟨nonempty, glyphs, -, stops⟩ | ⟨inside, rfl, nonempty, unclosed⟩
      · cases marker with
        | nil => exact absurd rfl nonempty
        | cons c marker =>
            have first := isBarGlyph_iff.mpr (glyphs c List.mem_cons_self)
            have inner : ∀ glyph ∈ marker, isBarGlyph glyph = true :=
              fun glyph member => isBarGlyph_iff.mpr (glyphs glyph (.tail _ member))
            have ends : ∀ next ∈ rest.head?, isBarGlyph next = false :=
              fun next member => by simpa [← isBarGlyph_iff] using stops next member
            obtain ⟨taken, dropped⟩ := takeWhile_run inner ends
            simp [Token.chars, token?, first, taken, dropped]
      · have body : groupBody? (inside ++ ']' :: rest) = some (inside, rest) :=
          groupBody?_eq_some_iff.mpr ⟨rfl, nonempty, unclosed⟩
        have notBar : isBarGlyph '[' = false := by decide
        simp [Token.chars, token?, notBar, body]
  | note digit modifiers =>
      obtain ⟨degree, marks, stops⟩ := stands
      have notBar : isBarGlyph digit = false := by
        simpa [← isBarGlyph_iff] using degreeDigit_not_bar digit degree
      have notOpening : digit ≠ '[' := by
        rintro rfl
        revert degree
        decide
      have first := isDegreeDigit_iff.mpr degree
      have inner : ∀ mark ∈ modifiers, isModifier mark = true :=
        fun mark member => isModifier_iff.mpr (marks mark member)
      have ends : ∀ next ∈ rest.head?, isModifier next = false :=
        fun next member => by simpa [← isModifier_iff] using stops next member
      obtain ⟨taken, dropped⟩ := takeWhile_run inner ends
      simp [Token.chars, token?, notBar, notOpening, first, taken, dropped]

/-- A token is read exactly where it stands, when nothing is before it. -/
theorem token?_eq_some_iff {cs rest : List Char} {found : Token} :
    token? cs = some (found, rest) ↔ cs = found.chars ++ rest ∧ found.Stands [] rest := by
  constructor
  · exact stands_of_token?
  · rintro ⟨rfl, stands⟩
    exact token?_of_stands stands

/-- What stands before a token only matters to runs of bar glyphs. -/
theorem Token.Stands.alone {before after : List Char} {token : Token}
    (stands : token.Stands before after) : token.Stands [] after := by
  cases token with
  | bar marker =>
      rcases stands with ⟨nonempty, glyphs, -, stops⟩ | group
      · exact .inl ⟨nonempty, glyphs, by simp, stops⟩
      · exact .inr group
  | note digit modifiers => exact stands

theorem Token.Stands.behind {before after : List Char} {token : Token}
    (stands : token.Stands [] after)
    (apart : ∀ c ∈ before.getLast?, c ∈ barGlyphs → ∀ d ∈ token.chars.head?, d ∉ barGlyphs) :
    token.Stands before after := by
  cases token with
  | bar marker =>
      rcases stands with ⟨nonempty, glyphs, -, stops⟩ | group
      · refine .inl ⟨nonempty, glyphs, ?_, stops⟩
        intro c final bar
        cases marker with
        | nil => exact nonempty rfl
        | cons d marker => exact apart c final bar d rfl (glyphs d List.mem_cons_self)
      · exact .inr group
  | note digit modifiers => exact stands

theorem Token.Stands.apart {before after : List Char} {token : Token}
    (stands : token.Stands before after) :
    ∀ c ∈ token.chars.getLast?, c ∈ barGlyphs → ∀ d ∈ after.head?, d ∉ barGlyphs := by
  intro c final bar d first
  cases token with
  | bar marker =>
      rcases stands with ⟨-, -, -, stops⟩ | ⟨inside, rfl, -, -⟩
      · exact stops d first
      · have closing : c = ']' :=
          (Option.some.inj (List.getLast?_concat.symm.trans final)).symm
        rw [closing] at bar
        exact absurd bar (by decide)
  | note digit modifiers =>
      obtain ⟨degree, marks, -⟩ := stands
      have member : c ∈ digit :: modifiers := List.mem_of_getLast? final
      rcases List.mem_cons.mp member with rfl | mark
      · exact absurd bar (degreeDigit_not_bar c degree)
      · exact absurd bar (modifier_not_bar c (marks c mark))

theorem Token.Stands.chars_ne_nil {before after : List Char} {token : Token}
    (stands : token.Stands before after) : token.chars ≠ [] := by
  cases token with
  | bar marker =>
      rcases stands with ⟨nonempty, -⟩ | ⟨inside, rfl, -⟩
      · exact nonempty
      · simp [Token.chars]
  | note digit modifiers => simp [Token.chars]

/-! Reading all tokens -/

@[simp] theorem tokens_nil : tokens [] = [] := by
  rw [tokens]
  rfl

theorem tokens_of_some {cs rest : List Char} {first : Token}
    (read : token? cs = some (first, rest)) : tokens cs = first :: tokens rest := by
  rw [tokens]
  split
  · rename_i found
    rw [read] at found
    cases found
    rfl
  · rename_i absent
    rw [read] at absent
    cases absent

theorem tokens_of_none {c : Char} {rest : List Char}
    (absent : token? (c :: rest) = none) : tokens (c :: rest) = tokens rest := by
  rw [tokens]
  split
  · rename_i found
    rw [absent] at found
    cases found
  · rfl

/-- Every token of a text stands in front of something there. -/
theorem stands_of_mem_tokens {cs : List Char} {token : Token} (member : token ∈ tokens cs) :
    ∃ after, token.Stands [] after := by
  induction cs using tokens.induct with
  | case1 cs first rest read ih =>
      rw [tokens_of_some read] at member
      rcases List.mem_cons.mp member with rfl | later
      · exact ⟨rest, (token?_eq_some_iff.mp read).2⟩
      · exact ih later
  | case2 => simp at member
  | case3 c rest absent ih =>
      rw [tokens_of_none absent] at member
      exact ih member

theorem degree_of_mem_tokens {cs modifiers : List Char} {digit : Char}
    (member : .note digit modifiers ∈ tokens cs) : digit ∈ degreeDigits := by
  obtain ⟨after, degree, -⟩ := stands_of_mem_tokens member
  exact degree

theorem IsGap.tokens {gap after : List Char} (isGap : IsGap gap after) :
    tokens (gap ++ after) = tokens after := by
  induction gap with
  | nil => rfl
  | cons c gap ih =>
      obtain ⟨skippable, isGap⟩ := isGap
      rw [List.cons_append, tokens_of_none (token?_eq_none_iff.mpr skippable)]
      exact ih isGap

theorem IsCut.tokens {before last : List Char} {pieces : List Piece}
    (cut : IsCut before pieces last) :
    tokens (written pieces last) = pieces.map (·.token) := by
  induction pieces generalizing before with
  | nil => simpa using IsGap.tokens cut
  | cons piece pieces ih =>
      obtain ⟨isGap, stands, more⟩ := cut
      have read : token? (piece.token.chars ++ written pieces last) =
          some (piece.token, written pieces last) :=
        token?_eq_some_iff.mpr ⟨rfl, stands.alone⟩
      rw [written_cons, isGap.tokens, tokens_of_some read, ih more]
      rfl

/-! Uniqueness -/

/-- Two gaps at the start of one text are the same when neither can be made
longer: the text ends there, or a token starts. -/
theorem gap_unique {left right leftAfter rightAfter : List Char}
    (leftGap : IsGap left leftAfter) (rightGap : IsGap right rightAfter)
    (leftEnds : ∀ c cs, leftAfter = c :: cs → ¬ Skippable c cs)
    (rightEnds : ∀ c cs, rightAfter = c :: cs → ¬ Skippable c cs)
    (same : left ++ leftAfter = right ++ rightAfter) : left = right := by
  induction left generalizing right with
  | nil =>
      cases right with
      | nil => rfl
      | cons c right => exact absurd rightGap.1 (leftEnds c _ same)
  | cons c left ih =>
      cases right with
      | nil => exact absurd leftGap.1 (rightEnds c _ same.symm)
      | cons d right =>
          obtain ⟨rfl, rest⟩ := List.cons.inj same
          rw [ih leftGap.2 rightGap.2 rest]

theorem Token.Stands.not_skippable {before after : List Char} {token : Token}
    (stands : token.Stands before after) (c : Char) (cs : List Char)
    (first : token.chars ++ after = c :: cs) : ¬ Skippable c cs := by
  have read := token?_eq_some_iff.mpr ⟨rfl, stands.alone⟩
  rw [first] at read
  intro skippable
  rw [token?_eq_none_iff.mpr skippable] at read
  cases read

/-- A text is cut in one way only. -/
theorem IsCut.unique {leftBefore rightBefore leftLast rightLast : List Char}
    {left right : List Piece}
    (leftCut : IsCut leftBefore left leftLast) (rightCut : IsCut rightBefore right rightLast)
    (same : written left leftLast = written right rightLast) :
    left = right ∧ leftLast = rightLast := by
  induction left generalizing leftBefore rightBefore right with
  | nil =>
      cases right with
      | nil => exact ⟨rfl, same⟩
      | cons piece right =>
          obtain ⟨isGap, stands, -⟩ := rightCut
          have text : leftLast ++ [] =
              piece.gap ++ (piece.token.chars ++ written right rightLast) := by simpa using same
          have gaps := gap_unique leftCut isGap (by simp) stands.not_skippable text
          have nothing : piece.token.chars = [] := by simp_all
          exact absurd nothing stands.chars_ne_nil
  | cons piece left ih =>
      obtain ⟨leftGap, leftStands, leftMore⟩ := leftCut
      cases right with
      | nil =>
          have text : piece.gap ++ (piece.token.chars ++ written left leftLast) =
              rightLast ++ [] := by simpa using same
          have gaps := gap_unique leftGap rightCut leftStands.not_skippable (by simp) text
          have nothing : piece.token.chars = [] := by simp_all
          exact absurd nothing leftStands.chars_ne_nil
      | cons other right =>
          obtain ⟨rightGap, rightStands, rightMore⟩ := rightCut
          simp only [written_cons] at same
          have gaps := gap_unique leftGap rightGap leftStands.not_skippable
            rightStands.not_skippable same
          rw [gaps] at same
          have after := List.append_cancel_left same
          have leftRead := token?_eq_some_iff.mpr ⟨rfl, leftStands.alone⟩
          have rightRead := token?_eq_some_iff.mpr ⟨rfl, rightStands.alone⟩
          rw [after, rightRead] at leftRead
          obtain ⟨token, rest⟩ := Prod.mk.inj (Option.some.inj leftRead)
          obtain ⟨pieces, last⟩ := ih leftMore rightMore rest.symm
          refine ⟨?_, last⟩
          rw [pieces, show piece = other from ?_]
          cases piece
          cases other
          simp_all

/-! Existence -/

/-- A skippable character in front of a cut text goes into its first gap. -/
theorem IsCut.skip {before last : List Char} {pieces : List Piece} {c : Char}
    (cut : IsCut (before ++ [c]) pieces last) (skippable : Skippable c (written pieces last)) :
    ∃ longer longerLast, IsCut before longer longerLast ∧
      written longer longerLast = c :: written pieces last := by
  cases pieces with
  | nil => exact ⟨[], c :: last, ⟨by simpa using skippable, cut⟩, rfl⟩
  | cons piece pieces =>
      obtain ⟨isGap, stands, more⟩ := cut
      refine ⟨⟨c :: piece.gap, piece.token⟩ :: pieces, last, ⟨⟨?_, isGap⟩, ?_, ?_⟩, ?_⟩
      · simpa using skippable
      · simpa using stands
      · simpa [Piece.chars] using more
      · simp

/-- Every text is cut, wherever it stands, unless that splits a run of bar glyphs. -/
theorem exists_cut (before cs : List Char)
    (apart : ∀ c ∈ before.getLast?, c ∈ barGlyphs → ∀ d ∈ cs.head?, d ∉ barGlyphs) :
    ∃ pieces last, IsCut before pieces last ∧ written pieces last = cs := by
  -- The cases are those of the reader: a token, the end, a character that starts none.
  induction cs using tokens.induct generalizing before with
  | case1 cs first rest read ih =>
      obtain ⟨rfl, alone⟩ := token?_eq_some_iff.mp read
      have nonempty := alone.chars_ne_nil
      have stands : first.Stands before rest := by
        apply alone.behind
        intro c final bar d start
        apply apart c final bar d
        rw [Option.mem_def] at start ⊢
        rw [List.head?_append, start, Option.some_or]
      obtain ⟨pieces, last, cut, rfl⟩ := ih (before ++ first.chars) (by
        intro c final
        rw [List.getLast?_append, List.getLast?_eq_some_getLast nonempty, Option.some_or,
          ← List.getLast?_eq_some_getLast nonempty] at final
        exact stands.apart c final)
      exact ⟨⟨[], first⟩ :: pieces, last,
        ⟨trivial, by simpa using stands, by simpa [Piece.chars] using cut⟩, by simp⟩
  | case2 absent => exact ⟨[], [], trivial, rfl⟩
  | case3 c rest absent ih =>
      have skippable := token?_eq_none_iff.mp absent
      obtain ⟨pieces, last, cut, rfl⟩ := ih (before ++ [c]) (by
        intro d final bar
        have same : c = d := by simpa using final
        exact absurd (same ▸ bar) skippable.1)
      exact cut.skip skippable

end Jianpu.Notation
