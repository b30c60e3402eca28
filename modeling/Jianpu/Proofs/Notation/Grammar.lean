import Jianpu.Notation.Melody
import Jianpu.Proofs.Notation.Cutting
import Mathlib.Data.List.Forall2

/-! Melody texts are read as their grammar says: the events of a text are the
tokens of its one cutting, and every degree digit that no group encloses heads
exactly one note. -/

set_option autoImplicit false

namespace Jianpu.Notation

open Number (Scalar)

/-- An event that shows a token as it is written, bars for bars and notes for notes. -/
def Event.Shows {α : Type} : Event α → Token → Prop
  | .bar marker, .bar glyphs => marker = String.ofList glyphs
  | .note n, .note digit modifiers => n.source = String.ofList (digit :: modifiers)
  | _, _ => False

theorem eventOf_shows {α : Type} [Scalar α] (key : Key) (token : Token) :
    (eventOf key token : Event α).Shows token := by
  cases token <;> rfl

/-- Every note of a melody is read from a degree digit and the modifiers after it. -/
theorem exists_noteOf {α : Type} [Scalar α] {key : Key} {text : String} {note : Note α}
    (member : note ∈ (Melody.ofText key text).notes) :
    ∃ digit modifiers, digit ∈ degreeDigits ∧ note = noteOf key digit modifiers := by
  obtain ⟨event, among, sounds⟩ := List.mem_filterMap.mp member
  obtain ⟨token, read, rfl⟩ := List.mem_map.mp among
  cases token with
  | bar marker => cases sounds
  | note digit modifiers =>
      exact ⟨digit, modifiers, degree_of_mem_tokens read, (Option.some.inj sounds).symm⟩

/-- The tokens of pieces with the places where they start, when the first gap
starts at `start`. -/
def placed : (start : Nat) → List Piece → List (Nat × Token)
  | _, [] => []
  | start, piece :: pieces =>
      (start + piece.gap.length, piece.token) :: placed (start + piece.chars.length) pieces

/-- A group that has a place between its brackets. -/
def Encloses (entry : Nat × Token) (place : Nat) : Prop :=
  ∃ marker, entry.2 = .bar marker ∧ IsGroup marker ∧
    entry.1 < place ∧ place < entry.1 + marker.length

theorem le_of_mem_placed {start : Nat} {pieces : List Piece} {entry : Nat × Token}
    (member : entry ∈ placed start pieces) : start ≤ entry.1 := by
  induction pieces generalizing start with
  | nil => cases member
  | cons piece pieces ih =>
      rcases List.mem_cons.mp member with rfl | member
      · exact Nat.le_add_right _ _
      · exact Nat.le_trans (Nat.le_add_right _ _) (ih member)

theorem filter_placed_of_lt {start place : Nat} {pieces : List Piece} (early : place < start) :
    (placed start pieces).filter (·.1 == place) = [] := by
  rw [List.filter_eq_nil_iff]
  intro entry member
  have late := le_of_mem_placed member
  simp only [beq_iff_eq]
  omega

theorem IsGap.no_degree {gap after : List Char} (isGap : IsGap gap after) :
    ∀ c ∈ gap, c ∉ degreeDigits := by
  induction gap with
  | nil => simp
  | cons c gap ih =>
      obtain ⟨skippable, isGap⟩ := isGap
      intro d member
      rcases List.mem_cons.mp member with rfl | member
      · exact skippable.2.1
      · exact ih isGap d member

/-- A degree digit of a token is inside its group, or the head of its note. -/
theorem Token.Stands.degree {before after : List Char} {token : Token} {place : Nat} {digit : Char}
    (stands : token.Stands before after) (found : token.chars[place]? = some digit)
    (degree : digit ∈ degreeDigits) :
    (∃ marker, token = .bar marker ∧ IsGroup marker ∧ 0 < place ∧ place < marker.length) ∨
      place = 0 ∧ ∃ modifiers, token = .note digit modifiers := by
  have member := List.mem_of_getElem? found
  cases token with
  | bar marker =>
      rcases stands with ⟨-, glyphs, -⟩ | group
      · exact absurd (glyphs digit member) (degreeDigit_not_bar digit degree)
      · refine .inl ⟨marker, rfl, group, ?_, (List.getElem?_eq_some_iff.mp found).1⟩
        obtain ⟨inside, rfl, -⟩ := group
        cases place with
        | zero =>
            have opening : digit = '[' := (Option.some.inj found).symm
            rw [opening] at degree
            exact absurd degree (by decide)
        | succ place => exact Nat.succ_pos place
  | note head modifiers =>
      obtain ⟨-, marks, -⟩ := stands
      cases place with
      | zero =>
          have same : head = digit := Option.some.inj found
          exact .inr ⟨rfl, modifiers, same ▸ rfl⟩
      | succ place =>
          have mark := List.mem_of_getElem? (show modifiers[place]? = some digit from found)
          exact absurd (marks digit mark) (degreeDigit_not_modifier digit degree)

/-- Of the tokens of a cut text exactly one starts at a degree digit that no
group encloses, and it is the note of that digit. -/
theorem IsCut.degree {before last : List Char} {pieces : List Piece} {start place : Nat}
    {digit : Char} (cut : IsCut before pieces last)
    (found : (written pieces last)[place]? = some digit) (degree : digit ∈ degreeDigits)
    (outside : ∀ entry ∈ placed start pieces, ¬ Encloses entry (start + place)) :
    ∃ modifiers, (placed start pieces).filter (·.1 == start + place) =
      [(start + place, .note digit modifiers)] := by
  induction pieces generalizing before start place with
  | nil => exact absurd degree (IsGap.no_degree cut digit (List.mem_of_getElem? found))
  | cons piece pieces ih =>
      obtain ⟨isGap, stands, more⟩ := cut
      rw [written_cons] at found
      by_cases inGap : place < piece.gap.length
      · rw [List.getElem?_append_left inGap] at found
        exact absurd degree (isGap.no_degree digit (List.mem_of_getElem? found))
      · rw [List.getElem?_append_right (Nat.le_of_not_lt inGap)] at found
        have size : piece.chars.length = piece.gap.length + piece.token.chars.length := by
          simp [Piece.chars]
        by_cases inToken : place - piece.gap.length < piece.token.chars.length
        · rw [List.getElem?_append_left inToken] at found
          have later : start + place < start + piece.chars.length := by omega
          rcases stands.degree found degree with ⟨marker, isBar, group, opened, closed⟩ | head
          · refine absurd ⟨marker, isBar, group, ?_, ?_⟩ (outside _ List.mem_cons_self)
            · dsimp only
              omega
            · dsimp only
              omega
          · obtain ⟨atStart, modifiers, isNote⟩ := head
            have here : start + piece.gap.length = start + place := by omega
            refine ⟨modifiers, ?_⟩
            rw [placed, List.filter_cons_of_pos (by simpa using here),
              filter_placed_of_lt later, here, isNote]
        · rw [List.getElem?_append_right (Nat.le_of_not_lt inToken)] at found
          have nonempty := List.length_pos_of_ne_nil stands.chars_ne_nil
          have shifted : start + place =
              start + piece.chars.length + (place - piece.chars.length) := by omega
          rw [Nat.sub_sub, ← size] at found
          rw [shifted] at outside ⊢
          obtain ⟨modifiers, only⟩ :=
            ih more found (fun entry member => outside entry (.tail _ member))
          refine ⟨modifiers, ?_⟩
          rw [placed, List.filter_cons_of_neg, only]
          simp only [beq_iff_eq]
          omega

/-- The events of a text are the tokens of its cutting, which is the only one. -/
theorem ofText_recognises_grammar {α : Type} [Scalar α] (key : Key) (text : String) :
    ∃ pieces last, IsCut [] pieces last ∧ written pieces last = text.toList ∧
      (∀ others otherLast, IsCut [] others otherLast →
        written others otherLast = text.toList → others = pieces ∧ otherLast = last) ∧
      List.Forall₂ Event.Shows (Melody.ofText (α := α) key text).events
        (pieces.map (·.token)) ∧
      ∀ place digit, text.toList[place]? = some digit → digit ∈ degreeDigits →
        (∀ entry ∈ placed 0 pieces, ¬ Encloses entry place) →
        ∃ modifiers, (placed 0 pieces).filter (·.1 == place) =
          [(place, .note digit modifiers)] := by
  obtain ⟨pieces, last, cut, text_eq⟩ := exists_cut [] text.toList (by simp)
  refine ⟨pieces, last, cut, text_eq, ?_, ?_, ?_⟩
  · intro others otherLast otherCut otherText
    exact otherCut.unique cut (otherText.trans text_eq.symm)
  · have same : (Melody.ofText (α := α) key text).events =
        (pieces.map (·.token)).map (eventOf key) := by
      rw [← cut.tokens, text_eq]
      rfl
    rw [same, List.forall₂_map_left_iff, List.forall₂_same]
    intro token _
    exact eventOf_shows key token
  · intro place digit found degree outside
    rw [← text_eq] at found
    have outsideAll : ∀ entry ∈ placed 0 pieces, ¬ Encloses entry (0 + place) := by
      simpa using outside
    simpa using cut.degree found degree outsideAll

end Jianpu.Notation
