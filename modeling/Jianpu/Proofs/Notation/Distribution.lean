import Jianpu.Proofs.Notation.Grammar
import Jianpu.Proofs.Notation.Joining
import Jianpu.Proofs.Number.Exact
import Mathlib.Data.List.DropRight

/-! Two texts read as one. With a blank between them they mean what they mean apart, unless a
bracket that the first leaves open is closed in the second; then a group of the whole takes up
what is read in the parts. -/

set_option autoImplicit false

namespace Jianpu.Notation

open Number (Scalar)

/-! Open brackets -/

/-- The brackets of a text are closed when none opens behind the last closing one. -/
theorem closesGroups_iff {cs : List Char} :
    ClosesGroups cs ↔ '[' ∉ cs.rtakeWhile (· != ']') := by
  constructor
  · intro closes opening
    obtain ⟨front, back, behind⟩ := List.append_of_mem opening
    obtain ⟨start, whole⟩ := List.rtakeWhile_suffix (· != ']') cs
    have closed : ']' ∈ back := by
      apply closes (start ++ front)
      rw [← whole, behind, List.append_assoc]
    have member : ']' ∈ cs.rtakeWhile (· != ']') := by
      rw [behind]
      exact List.mem_append_right _ (List.mem_cons_of_mem _ closed)
    exact absurd (List.mem_rtakeWhile_imp member) (by decide)
  · rintro noOpening before after rfl
    by_contra never
    apply noOpening
    have unclosed : ∀ c ∈ after.reverse ++ ['['], (c != ']') = true := by
      intro c member
      rcases List.mem_append.mp member with later | opening
      · have different : c ≠ ']' := fun same => never (same ▸ List.mem_reverse.mp later)
        simpa using different
      · rw [List.mem_singleton.mp opening]
        decide
    have reversed : (before ++ '[' :: after).reverse =
        after.reverse ++ ['['] ++ before.reverse := by
      simp
    rw [List.rtakeWhile, reversed, List.takeWhile_append_of_pos unclosed]
    simp

theorem ClosesGroups.append {front back : List Char} (closes : ClosesGroups front)
    (alsoCloses : ClosesGroups back) : ClosesGroups (front ++ back) := by
  intro before after split
  rcases List.append_eq_append_iff.mp split with ⟨inner, -, rest⟩ | ⟨inner, head, rest⟩
  · exact alsoCloses inner after rest
  · cases inner with
    | nil => exact alsoCloses [] after rest.symm
    | cons c inner =>
        obtain ⟨rfl, rfl⟩ := List.cons.inj rest
        exact List.mem_append_left _ (closes before inner head)

theorem closesGroups_cons {c : Char} {rest : List Char} (closed : c = '[' → ']' ∈ rest)
    (closes : ClosesGroups rest) : ClosesGroups (c :: rest) := by
  intro before after split
  cases before with
  | nil =>
      obtain ⟨opening, same⟩ := List.cons.inj split
      exact same ▸ closed opening
  | cons d before => exact closes before after (List.cons.inj split).2

/-- A token leaves no bracket open. -/
theorem Token.Stands.closesGroups {before after : List Char} {token : Token}
    (stands : token.Stands before after) : ClosesGroups token.chars := by
  cases token with
  | bar marker =>
      rcases stands with ⟨-, glyphs, -⟩ | ⟨inside, rfl, -, -⟩
      · apply closesGroups_of_not_mem
        intro opening
        exact absurd (glyphs '[' opening) (by decide)
      · have nothing : ('[' :: inside ++ [']']).rtakeWhile (· != ']') = [] :=
          List.rtakeWhile_concat_neg _ _ _ (by decide)
        apply closesGroups_iff.mpr
        rw [Token.chars, nothing]
        exact List.not_mem_nil
  | note digit modifiers =>
      obtain ⟨degree, marks, -⟩ := stands
      apply closesGroups_of_not_mem
      intro opening
      rcases List.mem_cons.mp opening with rfl | mark
      · exact absurd degree (by decide)
      · exact absurd (marks '[' mark) (by decide)

/-! Characters that tokens take up -/

/-- The number of characters that tokens are written with. -/
def writtenLength (list : List Token) : Nat :=
  (list.map (·.chars.length)).sum

theorem writtenLength_cons (token : Token) (list : List Token) :
    writtenLength (token :: list) = token.chars.length + writtenLength list := by
  rw [writtenLength, List.map_cons, List.sum_cons, ← writtenLength]

theorem writtenLength_append (front back : List Token) :
    writtenLength (front ++ back) = writtenLength front + writtenLength back := by
  rw [writtenLength, List.map_append, List.sum_append_nat, ← writtenLength, ← writtenLength]

theorem writtenLength_tokens_le (cs : List Char) : writtenLength (tokens cs) ≤ cs.length := by
  induction cs using tokens.induct with
  | case1 cs first rest read ih =>
      obtain ⟨rfl, -⟩ := token?_eq_some_iff.mp read
      rw [tokens_of_some read, writtenLength_cons, List.length_append]
      omega
  | case2 => simp [writtenLength]
  | case3 c rest absent ih =>
      rw [tokens_of_none absent, List.length_cons]
      omega

/-- No token goes on behind a closing bracket. -/
theorem Token.Stands.ends_at_closing {before after front back : List Char} {token : Token}
    (stands : token.Stands before after) (closing : token.chars = front ++ ']' :: back) :
    back = [] := by
  have member : ']' ∈ token.chars := by
    rw [closing]
    exact List.mem_append_right _ List.mem_cons_self
  cases token with
  | bar marker =>
      rcases stands with ⟨-, glyphs, -⟩ | ⟨inside, rfl, -, unclosed⟩
      · exact absurd (glyphs ']' member) (by decide)
      · by_contra further
        obtain ⟨most, last, rfl⟩ := (List.eq_nil_or_concat back).resolve_left further
        have parts : '[' :: inside = front ++ ']' :: most := by
          have whole : ('[' :: inside) ++ [']'] = (front ++ ']' :: most) ++ [last] := by
            simpa [Token.chars] using closing
          exact (List.append_inj' whole rfl).1
        cases front with
        | nil => exact absurd (List.cons.inj parts).1 (by decide)
        | cons c front =>
            apply unclosed
            rw [(List.cons.inj parts).2]
            exact List.mem_append_right _ List.mem_cons_self
  | note digit modifiers =>
      obtain ⟨degree, marks, -⟩ := stands
      rcases List.mem_cons.mp member with rfl | mark
      · exact absurd degree (by decide)
      · exact absurd (marks ']' mark) (by decide)

/-- Up to a closing bracket tokens take up no more than what stands there. -/
theorem writtenLength_behind_closing (front back : List Char) :
    writtenLength (tokens (front ++ ']' :: back)) ≤
      front.length + 1 + writtenLength (tokens back) := by
  generalize whole : front ++ ']' :: back = cs
  induction cs using tokens.induct generalizing front with
  | case1 cs first rest read ih =>
      obtain ⟨rfl, stands⟩ := token?_eq_some_iff.mp read
      rw [tokens_of_some read, writtenLength_cons]
      rcases List.append_eq_append_iff.mp whole with ⟨inner, head, tail⟩ | ⟨inner, rfl, tail⟩
      · cases inner with
        | nil =>
            have bound := ih [] tail
            simp only [List.append_nil] at head
            rw [head]
            simp only [List.length_nil] at bound
            omega
        | cons c inner =>
            obtain ⟨rfl, rfl⟩ := List.cons.inj tail
            obtain rfl := stands.ends_at_closing head
            rw [head, List.length_append, List.length_singleton]
            exact Nat.le_refl _
      · have bound := ih inner tail.symm
        rw [List.length_append]
        omega
  | case2 => simp at whole
  | case3 c rest absent ih =>
      rw [tokens_of_none absent]
      cases front with
      | nil =>
          obtain ⟨rfl, rfl⟩ := List.cons.inj whole
          omega
      | cons d front =>
          have bound := ih front (List.cons.inj whole).2
          rw [List.length_cons]
          omega

/-! Reading a text in two parts -/

variable {separator : Char} {front back : List Char}

theorem Skippable.longer {c : Char} {rest more : List Char} (skippable : Skippable c rest)
    (closed : c = '[' → ']' ∈ rest) : Skippable c (rest ++ more) := by
  refine ⟨skippable.1, skippable.2.1, fun opening => ?_⟩
  left
  have atOnce := (skippable.2.2 opening).resolve_right fun never => never (closed opening)
  rw [List.head?_append, atOnce, Option.some_or]

/-- The group from an open bracket to the next closing one holds the separator. -/
theorem writtenLength_lt_of_opening (separates : Separates separator) (unclosed : ']' ∉ front)
    (closing : ']' ∈ back) :
    writtenLength (tokens front) + writtenLength (tokens back) <
      writtenLength (tokens ('[' :: front ++ separator :: back)) := by
  obtain ⟨inside, rest, rfl, first⟩ := List.eq_append_cons_of_mem closing
  have group : token? ('[' :: front ++ separator :: (inside ++ ']' :: rest)) =
      some (.bar ('[' :: (front ++ separator :: inside) ++ [']']), rest) := by
    refine token?_eq_some_iff.mpr ⟨by simp [Token.chars], .inr ⟨_, rfl, by simp, ?_⟩⟩
    simp only [List.mem_append, List.mem_cons, not_or]
    exact ⟨unclosed, separates.2.2.2.2.symm, first⟩
  have before := writtenLength_tokens_le front
  have behind := writtenLength_behind_closing inside rest
  rw [tokens_of_some group, writtenLength_cons]
  simp only [Token.chars, List.length_append, List.length_cons, List.length_nil]
  omega

/-- A bracket that the front leaves open and the back closes takes up the separator too. -/
theorem writtenLength_lt (separates : Separates separator) (unclosed : ¬ ClosesGroups front)
    (closing : ']' ∈ back) :
    writtenLength (tokens front) + writtenLength (tokens back) <
      writtenLength (tokens (front ++ separator :: back)) := by
  induction front using tokens.induct with
  | case1 front first rest read ih =>
      obtain ⟨rfl, stands⟩ := token?_eq_some_iff.mp read
      have longer : token? (first.chars ++ rest ++ separator :: back) =
          some (first, rest ++ separator :: back) :=
        token?_eq_some_iff.mpr ⟨List.append_assoc .., stands.separated separates⟩
      have more := ih fun closes => unclosed (stands.closesGroups.append closes)
      rw [tokens_of_some longer, tokens_of_some read, writtenLength_cons, writtenLength_cons]
      omega
  | case2 absent => exact absurd (closesGroups_of_not_mem List.not_mem_nil) unclosed
  | case3 c rest absent ih =>
      have skippable := token?_eq_none_iff.mp absent
      rw [tokens_of_none absent]
      by_cases closed : c = '[' → ']' ∈ rest
      · have more := ih fun closes => unclosed (closesGroups_cons closed closes)
        rw [List.cons_append, tokens_of_none (token?_eq_none_iff.mpr (skippable.longer closed))]
        exact more
      · obtain ⟨rfl, never⟩ := Classical.not_imp.mp closed
        exact writtenLength_lt_of_opening separates never closing

/-- Text after a separator adds its own tokens just when no bracket is open before it, or none is
closed behind it. -/
theorem tokens_append_separator_iff (separates : Separates separator) :
    tokens (front ++ separator :: back) = tokens front ++ tokens back ↔
      ClosesGroups front ∨ ']' ∉ back := by
  constructor
  · intro same
    by_contra taken
    obtain ⟨unclosed, closing⟩ := not_or.mp taken
    have more := writtenLength_lt separates unclosed (not_not.mp closing)
    rw [same, writtenLength_append] at more
    exact absurd more (Nat.lt_irrefl _)
  · exact tokens_append_separator separates

/-! Events -/

theorem eventOf_injective {α : Type} [Scalar α] (key : Key) :
    Function.Injective (eventOf (α := α) key) := by
  intro first second same
  cases first with
  | bar marker =>
      cases second with
      | bar other =>
          have written : String.ofList marker = String.ofList other := by
            injection same
          rw [String.ofList_injective written]
      | note digit modifiers => cases same
  | note digit modifiers =>
      cases second with
      | bar marker => cases same
      | note other others =>
          have notes : noteOf (α := α) key digit modifiers = noteOf key other others := by
            injection same
          have written : String.ofList (digit :: modifiers) = String.ofList (other :: others) :=
            congrArg Note.source notes
          obtain ⟨rfl, rfl⟩ := List.cons.inj (String.ofList_injective written)
          rfl

theorem totalDuration_append (front back : List (Event Rat)) :
    totalDuration (front ++ back) = totalDuration front + totalDuration back := by
  simp only [totalDuration, Number.sum_rat, notesOf, List.filterMap_append, List.map_append,
    List.sum_append]

/-- Two texts with a blank between them have the events of the first and then those of the second
just when the second closes no bracket or the first leaves none open; and then they last as long as
both together. -/
theorem reading_distributes {α : Type} [Scalar α] (key : Key) (first second : String) :
    let whole := first ++ " " ++ second
    let apart := ']' ∉ second.toList ∨ '[' ∉ first.toList.rtakeWhile (· != ']')
    ((Melody.ofText (α := α) key whole).events =
        (Melody.ofText key first).events ++ (Melody.ofText key second).events ↔ apart) ∧
      (apart → (Melody.ofText (α := Rat) key whole).total =
        (Melody.ofText key first).total + (Melody.ofText key second).total) := by
  intro whole apart
  have joined : whole.toList = first.toList ++ ' ' :: second.toList := by
    simp [whole]
  have together : tokens whole.toList = tokens first.toList ++ tokens second.toList ↔ apart := by
    rw [joined, tokens_append_separator_iff separates_space, closesGroups_iff]
    exact or_comm
  constructor
  · rw [← together]
    simp only [Melody.ofText, eventsOf]
    rw [← List.map_append, (List.map_injective_iff.mpr (eventOf_injective key)).eq_iff]
  · intro separate
    simp only [Melody.ofText, eventsOf]
    rw [together.mpr separate, List.map_append, totalDuration_append]

/-- A stray bracket in the second text closes no group of the first. -/
theorem reading_distributes_before_stray_bracket :
    let first := "1 [A] 2_"
    let second := "B] 3-"
    let whole := Melody.ofText (α := Rat) Key.cMajor (first ++ " " ++ second)
    '[' ∉ first.toList.rtakeWhile (· != ']') ∧
      whole.events = (Melody.ofText Key.cMajor first).events ++
        (Melody.ofText Key.cMajor second).events ∧
      whole.total = 7 / 2 := by
  intro first second whole
  have apart : '[' ∉ first.toList.rtakeWhile (· != ']') := by decide +kernel
  obtain ⟨events, total⟩ := reading_distributes (α := Rat) Key.cMajor first second
  have before : (Melody.ofText (α := Rat) Key.cMajor first).total = 3 / 2 := by decide +kernel
  have behind : (Melody.ofText (α := Rat) Key.cMajor second).total = 2 := by decide +kernel
  refine ⟨apart, events.mpr (.inr apart), ?_⟩
  rw [total (.inr apart), before, behind]
  norm_num

end Jianpu.Notation
