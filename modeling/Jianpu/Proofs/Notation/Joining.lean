import Jianpu.Proofs.Notation.Cutting

/-! Texts put together with a separator between them. The tokens are those of
the parts unless a group that is left open in one part is closed in another. -/

set_option autoImplicit false

namespace Jianpu.Notation

/-- A character that belongs to no token outside a group and ends a note and a
run of bar glyphs. -/
def Separates (c : Char) : Prop :=
  c ∉ barGlyphs ∧ c ∉ degreeDigits ∧ c ∉ noteModifiers ∧ c ≠ '[' ∧ c ≠ ']'

/-- A text in which every opening bracket is followed by a closing one. -/
def ClosesGroups (cs : List Char) : Prop :=
  ∀ before after, cs = before ++ '[' :: after → ']' ∈ after

theorem separates_space : Separates ' ' := by
  unfold Separates
  decide

theorem closesGroups_of_not_mem {cs : List Char} (noOpening : '[' ∉ cs) : ClosesGroups cs := by
  rintro before after rfl
  exact absurd (by simp) noOpening

theorem ClosesGroups.of_append {front back : List Char} (closes : ClosesGroups (front ++ back)) :
    ClosesGroups back := by
  rintro before after rfl
  exact closes (front ++ before) after (List.append_assoc ..).symm

variable {separator : Char} {front back rest : List Char}

theorem head?_separated {p : Char → Prop} (stops : ∀ c ∈ rest.head?, p c)
    (atSeparator : p separator) :
    ∀ c ∈ (rest ++ separator :: back).head?, p c := by
  cases rest with
  | nil =>
      rintro _ ⟨⟩
      exact atSeparator
  | cons c rest => exact stops

theorem Token.Stands.separated {token : Token} (stands : token.Stands [] rest)
    (separates : Separates separator) : token.Stands [] (rest ++ separator :: back) := by
  cases token with
  | bar marker =>
      rcases stands with ⟨nonempty, glyphs, alone, stops⟩ | group
      · exact .inl ⟨nonempty, glyphs, alone, head?_separated stops separates.1⟩
      · exact .inr group
  | note digit modifiers =>
      obtain ⟨degree, marks, stops⟩ := stands
      exact ⟨degree, marks, head?_separated stops separates.2.2.1⟩

/-- A character that starts no token still starts none when a separator follows
and no group is opened by it. -/
theorem Skippable.separated {c : Char} (skippable : Skippable c rest)
    (separates : Separates separator) (apart : ClosesGroups (c :: rest) ∨ ']' ∉ back) :
    Skippable c (rest ++ separator :: back) := by
  refine ⟨skippable.1, skippable.2.1, ?_⟩
  rintro rfl
  rcases skippable.2.2 rfl with atOnce | never
  · left
    rw [List.head?_append, atOnce, Option.some_or]
  · right
    rcases apart with closes | unclosed
    · exact absurd (closes [] rest rfl) never
    · simp only [List.mem_append, List.mem_cons, not_or]
      exact ⟨never, separates.2.2.2.2.symm, unclosed⟩

/-- Text after a separator adds its own tokens and changes none before it. -/
theorem tokens_append_separator (separates : Separates separator)
    (apart : ClosesGroups front ∨ ']' ∉ back) :
    tokens (front ++ separator :: back) = tokens front ++ tokens back := by
  induction front using tokens.induct with
  | case1 front first rest read ih =>
      obtain ⟨rfl, stands⟩ := token?_eq_some_iff.mp read
      have longer : token? (first.chars ++ rest ++ separator :: back) =
          some (first, rest ++ separator :: back) :=
        token?_eq_some_iff.mpr ⟨List.append_assoc .., stands.separated separates⟩
      rw [tokens_of_some longer, tokens_of_some read, ih (apart.imp_left .of_append)]
      rfl
  | case2 absent =>
      have skippable : Skippable separator back :=
        ⟨separates.1, separates.2.1, fun opening => absurd opening separates.2.2.2.1⟩
      rw [List.nil_append, tokens_of_none (token?_eq_none_iff.mpr skippable), tokens_nil,
        List.nil_append]
  | case3 c rest absent ih =>
      have later : ClosesGroups ([c] ++ rest) → ClosesGroups rest := .of_append
      have skippable := (token?_eq_none_iff.mp absent).separated separates apart
      rw [List.cons_append, tokens_of_none (token?_eq_none_iff.mpr skippable),
        tokens_of_none absent, ih (apart.imp_left later)]

theorem tokens_intercalate {words : List (List Char)} (separates : Separates separator)
    (closed : ∀ word ∈ words, ClosesGroups word) :
    tokens ([separator].intercalate words) = words.flatMap tokens := by
  induction words with
  | nil => simp
  | cons word words ih =>
      have closedWord := closed word List.mem_cons_self
      have others := ih fun other member => closed other (.tail _ member)
      cases words with
      | nil => simp
      | cons next words =>
          rw [List.intercalate_cons_cons, List.append_assoc, List.singleton_append,
            tokens_append_separator separates (.inl closedWord), others]
          exact List.flatMap_cons.symm

/-! Single words -/

theorem tokens_note {digit : Char} {modifiers : List Char} (degree : digit ∈ degreeDigits)
    (marks : ∀ c ∈ modifiers, c ∈ noteModifiers) :
    tokens (digit :: modifiers) = [.note digit modifiers] := by
  have stands : (Token.note digit modifiers).Stands [] [] := ⟨degree, marks, by simp⟩
  have read : token? (digit :: modifiers) = some (.note digit modifiers, []) :=
    token?_eq_some_iff.mpr ⟨by simp [Token.chars], stands⟩
  rw [tokens_of_some read, tokens_nil]

theorem tokens_plain {word : List Char}
    (plain : ∀ c ∈ word, c ∉ barGlyphs ∧ c ∉ degreeDigits ∧ c ≠ '[') : tokens word = [] := by
  induction word with
  | nil => exact tokens_nil
  | cons c word ih =>
      obtain ⟨noBar, noDegree, noOpening⟩ := plain c List.mem_cons_self
      have skippable : Skippable c word :=
        ⟨noBar, noDegree, fun opening => absurd opening noOpening⟩
      rw [tokens_of_none (token?_eq_none_iff.mpr skippable)]
      exact ih fun other member => plain other (.tail _ member)

end Jianpu.Notation
