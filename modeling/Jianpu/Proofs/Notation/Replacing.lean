import Jianpu.Proofs.Notation.Grammar

/-! Notes that get other modifiers where they stand. Of the rest of a text a reader sees the first
character, and whether a closing bracket comes. Neither is ever a modifier, so that all other
tokens are read as before. -/

set_option autoImplicit false

namespace Jianpu.Notation

/-- Texts that look the same to a reader that stops in front of them. -/
def LooksLike (first second : List Char) : Prop :=
  first.head? = second.head? ∧ (']' ∈ first ↔ ']' ∈ second)

theorem LooksLike.append {first second : List Char} (alike : LooksLike first second)
    (front : List Char) : LooksLike (front ++ first) (front ++ second) := by
  obtain ⟨head, closing⟩ := alike
  constructor
  · rw [List.head?_append, List.head?_append, head]
  · rw [List.mem_append, List.mem_append, closing]

theorem Skippable.of_looksLike {c : Char} {first second : List Char}
    (skippable : Skippable c first) (alike : LooksLike first second) : Skippable c second := by
  obtain ⟨noBar, noDegree, unopened⟩ := skippable
  rw [alike.1, alike.2] at unopened
  exact ⟨noBar, noDegree, unopened⟩

theorem IsGap.of_looksLike {gap first second : List Char} (isGap : IsGap gap first)
    (alike : LooksLike first second) : IsGap gap second := by
  induction gap with
  | nil => trivial
  | cons c gap ih =>
      obtain ⟨skippable, isGap⟩ := isGap
      exact ⟨skippable.of_looksLike (alike.append gap), ih isGap⟩

/-! Tokens in place of others -/

/-- A token that can take the place of another one: it stands where that one stood, and from in
front of them both look alike. -/
def Token.CanReplace (other token : Token) : Prop :=
  ∀ after moved, token.Stands [] after → LooksLike after moved →
    other.Stands [] moved ∧ LooksLike (token.chars ++ after) (other.chars ++ moved)

/-- A piece with the same gap, and a token that can take the place of the other's. -/
def Piece.CanReplace (other piece : Piece) : Prop :=
  other.gap = piece.gap ∧ other.token.CanReplace piece.token

theorem Token.canReplace_self (token : Token) : token.CanReplace token := by
  intro after moved stands alike
  refine ⟨?_, alike.append token.chars⟩
  cases token with
  | bar marker =>
      rcases stands with ⟨nonempty, glyphs, first, stops⟩ | group
      · exact .inl ⟨nonempty, glyphs, first, alike.1 ▸ stops⟩
      · exact .inr group
  | note digit modifiers =>
      obtain ⟨degree, marks, stops⟩ := stands
      exact ⟨degree, marks, alike.1 ▸ stops⟩

theorem closing_not_modifier {modifiers : List Char} (marks : ∀ c ∈ modifiers, c ∈ noteModifiers) :
    ']' ∉ modifiers := by
  intro member
  exact absurd (marks ']' member) (by decide)

/-- Modifiers can take the place of modifiers. -/
theorem Token.canReplace_note (digit : Char) {modifiers others : List Char}
    (kept : (∀ c ∈ modifiers, c ∈ noteModifiers) → ∀ c ∈ others, c ∈ noteModifiers) :
    (Token.note digit others).CanReplace (.note digit modifiers) := by
  intro after moved stands alike
  obtain ⟨degree, marks, stops⟩ := stands
  refine ⟨⟨degree, kept marks, alike.1 ▸ stops⟩, rfl, ?_⟩
  simp only [Token.chars, List.cons_append, List.mem_cons, List.mem_append,
    closing_not_modifier marks, closing_not_modifier (kept marks), false_or, alike.2]

theorem IsCut.looksLike_replaced {before last : List Char} {pieces others : List Piece}
    (cut : IsCut before pieces last) (replaced : List.Forall₂ Piece.CanReplace others pieces) :
    LooksLike (written pieces last) (written others last) := by
  induction replaced generalizing before with
  | nil => exact ⟨rfl, Iff.rfl⟩
  | @cons other piece others pieces first _ ih =>
      obtain ⟨-, stands, more⟩ := cut
      obtain ⟨gap, token⟩ := first
      rw [written_cons, written_cons, gap]
      exact (token _ _ stands.alone (ih more)).2.append piece.gap

/-- The text that is left after a replacement has just the tokens that were put in. -/
theorem IsCut.tokens_replaced {before last : List Char} {pieces others : List Piece}
    (cut : IsCut before pieces last) (replaced : List.Forall₂ Piece.CanReplace others pieces) :
    Notation.tokens (written others last) = others.map (·.token) := by
  induction replaced generalizing before with
  | nil => simpa using IsGap.tokens cut
  | @cons other piece others pieces first more ih =>
      obtain ⟨isGap, stands, rest⟩ := cut
      obtain ⟨gap, token⟩ := first
      obtain ⟨newStands, alike⟩ := token _ _ stands.alone (rest.looksLike_replaced more)
      have newGap : IsGap other.gap (other.token.chars ++ written others last) :=
        gap ▸ isGap.of_looksLike alike
      have read := token?_eq_some_iff.mpr ⟨rfl, newStands⟩
      rw [written_cons, newGap.tokens, tokens_of_some read, ih rest, List.map_cons]

/-! Notes in place of others -/

/-- A change of events that leaves bars and makes notes of notes changes the notes one by one. -/
theorem notesOf_map {α β : Type} {f : Event α → Event β} {g : Note α → Note β}
    (bars : ∀ marker, f (.bar marker) = .bar marker) (notes : ∀ n, f (.note n) = .note (g n))
    (events : List (Event α)) : notesOf (events.map f) = (notesOf events).map g := by
  induction events with
  | nil => rfl
  | cons event events ih =>
      cases event with
      | bar marker => simpa [notesOf, bars] using ih
      | note n => simpa [notesOf, notes] using ih

end Jianpu.Notation
