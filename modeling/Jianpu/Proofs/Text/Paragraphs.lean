import Jianpu.Proofs.Text.Spelling
import Jianpu.Proofs.Text.Trimming
import Jianpu.Text.Lines

/-! Paragraphs of a text. A break is a line feed with nothing but blanks up to the
next one; the pieces between breaks have none in them, and written with empty lines
between them they are found again. -/

set_option autoImplicit false

namespace Jianpu.Text

/-- A text in which no line feed is followed by blanks and another line feed. -/
def IsUnbroken (cs : List Char) : Prop :=
  ∀ front back, cs = front ++ '\n' :: back → '\n' ∉ back.takeWhile isBlank

/-- A paragraph: some text that begins and ends with something visible, without a break. -/
structure IsParagraph (cs : List Char) : Prop where
  nonempty : cs ≠ []
  trimmed : IsTrimmed cs
  unbroken : IsUnbroken cs

variable {cs front back : List Char}

theorem isBlank_lineFeed : isBlank '\n' = true := by
  decide

theorem spellsItself_lineFeed : SpellsItself '\n' :=
  spellsItself_of_lt (by decide)

/-! Line ends -/

theorem not_mem_unifyLineEnds (cs : List Char) : '\r' ∉ unifyLineEnds cs := by
  fun_induction unifyLineEnds cs with
  | case1 => simp
  | case2 rest ih => simpa using ih
  | case3 c rest _ ih =>
      rw [List.mem_cons, not_or]
      refine ⟨?_, ih⟩
      split
      · decide
      · exact Ne.symm ‹_›

theorem unifyLineEnds_of_not_mem (absent : '\r' ∉ cs) : unifyLineEnds cs = cs := by
  fun_induction unifyLineEnds cs with
  | case1 => rfl
  | case2 rest ih => simp at absent
  | case3 c rest _ ih =>
      obtain ⟨other, others⟩ := not_or.mp (List.mem_cons.not.mp absent)
      rw [if_neg (Ne.symm other), ih others]

theorem isText_append_unifyLineEnds (front : List Char) (text : IsText (front ++ cs)) :
    IsText (front ++ unifyLineEnds cs) := by
  have carriageReturn : SpellsItself '\r' := spellsItself_of_lt (by decide)
  fun_induction unifyLineEnds cs generalizing front with
  | case1 => exact text
  | case2 rest ih =>
      obtain ⟨first, second⟩ := text.cut carriageReturn
      have others := (IsPart.tail spellsItself_lineFeed rest).spellsOnly second
      exact first.append (isText_cons spellsItself_lineFeed (ih [] others))
  | case3 c rest _ ih =>
      by_cases return_ : c = '\r'
      · subst return_
        obtain ⟨first, second⟩ := text.cut carriageReturn
        rw [if_pos rfl]
        exact first.append (isText_cons spellsItself_lineFeed (ih [] second))
      · rw [if_neg return_, List.append_cons]
        exact ih _ (by rwa [← List.append_cons])

theorem isText_unifyLineEnds (text : IsText cs) : IsText (unifyLineEnds cs) :=
  isText_append_unifyLineEnds [] text

/-! Breaks -/

theorem afterLastBlankLine?_eq_none_iff :
    afterLastBlankLine? cs = none ↔ '\n' ∉ cs.takeWhile isBlank := by
  induction cs with
  | nil => simp [afterLastBlankLine?]
  | cons c cs ih =>
      rw [afterLastBlankLine?]
      by_cases blank : isBlank c = true
      · rw [if_pos blank, List.takeWhile_cons_of_pos blank, List.mem_cons, not_or, ← ih]
        cases afterLastBlankLine? cs with
        | none =>
            by_cases feed : c = '\n'
            · simp [feed]
            · simp [feed, Ne.symm feed]
        | some remainder => simp
      · simp [blank]

theorem afterLastBlankLine?_eq_some {remainder : List Char}
    (found : afterLastBlankLine? cs = some remainder) :
    ∃ blanks, cs = blanks ++ '\n' :: remainder ∧ ∀ c ∈ blanks, isBlank c = true := by
  induction cs with
  | nil => cases found
  | cons c cs ih =>
      rw [afterLastBlankLine?] at found
      split at found
      · rename_i blank
        split at found
        · rename_i later
          cases found
          obtain ⟨blanks, rfl, blanksOnly⟩ := ih later
          exact ⟨c :: blanks, rfl, by simpa [blank] using blanksOnly⟩
        · split at found
          · rename_i feed
            cases found
            exact ⟨[], by rw [feed]; rfl, by simp⟩
          · cases found
      · cases found

/-- A break starts at a line feed whose blanks go on to another one. -/
theorem afterBreak?_eq_none_iff {c : Char} :
    afterBreak? (c :: cs) = none ↔ (c = '\n' → '\n' ∉ cs.takeWhile isBlank) := by
  by_cases feed : c = '\n'
  · subst feed
    simp [afterBreak?, afterLastBlankLine?_eq_none_iff]
  · unfold afterBreak?
    split
    · rename_i same
      exact absurd (List.cons.inj same).1 feed
    · simp [feed]

theorem takeWhile_isBlank_append (front back : List Char) :
    front.takeWhile isBlank ⊆ (front ++ back).takeWhile isBlank := by
  intro c member
  rw [List.takeWhile_append]
  split
  · exact List.mem_append_left _ ((List.takeWhile_prefix _).subset member)
  · exact member

theorem isUnbroken_nil : IsUnbroken [] := by
  intro front back split
  simp at split

theorem isUnbroken_cons {c : Char} (unbroken : IsUnbroken cs)
    (first : c = '\n' → '\n' ∉ cs.takeWhile isBlank) : IsUnbroken (c :: cs) := by
  intro front back split
  cases front with
  | nil =>
      obtain ⟨rfl, rfl⟩ := List.cons.inj split
      exact first rfl
  | cons d front =>
      obtain ⟨rfl, rest⟩ := List.cons.inj split
      exact unbroken front back rest

theorem IsUnbroken.middle {middle : List Char} (unbroken : IsUnbroken (front ++ middle ++ back)) :
    IsUnbroken middle := by
  rintro before after rfl feed
  exact unbroken (front ++ before) (after ++ back) (by simp)
    (takeWhile_isBlank_append after back feed)

/-! Pieces -/

/-- A text and its pieces between breaks. -/
inductive Breaks : List Char → List (List Char) → Prop where
  | last {piece : List Char} : IsUnbroken piece → Breaks piece [piece]
  | next {piece blanks rest : List Char} {pieces : List (List Char)} :
      IsUnbroken piece → (∀ c ∈ blanks, isBlank c = true) → Breaks rest pieces →
      Breaks (piece ++ '\n' :: (blanks ++ '\n' :: rest)) (piece :: pieces)

theorem Breaks.cons {c : Char} {first : List Char} {others : List (List Char)}
    (breaks : Breaks cs (first :: others)) (goesOn : c = '\n' → '\n' ∉ cs.takeWhile isBlank) :
    Breaks (c :: cs) ((c :: first) :: others) := by
  cases breaks with
  | last unbroken => exact .last (isUnbroken_cons unbroken goesOn)
  | next unbroken blank rest =>
      have ownGoesOn : c = '\n' → '\n' ∉ first.takeWhile isBlank :=
        fun feed member => goesOn feed (takeWhile_isBlank_append _ _ member)
      exact .next (isUnbroken_cons unbroken ownGoesOn) blank rest

theorem breaks_cutAtBreaks (cs : List Char) {fuel : Nat} (enough : cs.length ≤ fuel) :
    Breaks cs (cutAtBreaks fuel cs) := by
  induction fuel generalizing cs with
  | zero =>
      obtain rfl := List.length_eq_zero_iff.mp (Nat.le_zero.mp enough)
      exact .last isUnbroken_nil
  | succ fuel ih =>
      cases cs with
      | nil => exact .last isUnbroken_nil
      | cons c cs =>
          rw [List.length_cons] at enough
          rw [cutAtBreaks]
          cases found : afterBreak? (c :: cs) with
          | some remainder =>
              have feed : c = '\n' := by
                by_contra other
                rw [afterBreak?_eq_none_iff.mpr fun same => absurd same other] at found
                cases found
              subst feed
              obtain ⟨blanks, rfl, blank⟩ := afterLastBlankLine?_eq_some found
              rw [List.length_append, List.length_cons] at enough
              exact .next isUnbroken_nil blank (ih remainder (by omega))
          | none =>
              have rest := ih cs (by omega)
              dsimp only
              split
              · rename_i nothing
                rw [nothing] at rest
                cases rest
              · rename_i first others pieces
                rw [pieces] at rest
                exact rest.cons (afterBreak?_eq_none_iff.mp found)

theorem Breaks.parts {pieces : List (List Char)} (breaks : Breaks cs pieces) :
    ∀ piece ∈ pieces, IsUnbroken piece ∧ IsPart piece cs := by
  induction breaks with
  | last unbroken =>
      intro piece member
      obtain rfl := List.mem_singleton.mp member
      exact ⟨unbroken, .refl _⟩
  | @next piece blanks rest pieces unbroken blank breaks ih =>
      intro other member
      rcases List.mem_cons.mp member with rfl | among
      · exact ⟨unbroken, [], _, by simp; rfl, by simp, by simpa using spellsItself_lineFeed⟩
      · obtain ⟨otherUnbroken, inRest⟩ := ih other among
        refine ⟨otherUnbroken, inRest.trans ⟨piece ++ '\n' :: blanks ++ ['\n'], [], ?_, ?_, ?_⟩⟩
        · simp
        · rw [List.getLast?_concat]
          rintro _ ⟨⟩
          exact spellsItself_lineFeed
        · simp

/-! Paragraphs -/

theorem spellsItself_of_isBlank {c : Char} (blank : isBlank c = true) : SpellsItself c := by
  apply spellsItself_of_lt
  obtain ⟨run, member, inside⟩ := List.any_eq_true.mp blank
  have bounded : ∀ run ∈ blankRuns, run.2 < CodePoint.firstStandIn := by
    decide
  have upper := bounded run member
  simp only [Bool.and_eq_true, decide_eq_true_eq] at inside
  omega

theorem isPart_trimmed (cs : List Char) : IsPart (trimmed cs) cs := by
  obtain ⟨front, back, split, before, after⟩ := trimmed_split cs
  exact ⟨front, back, split,
    fun c last => spellsItself_of_isBlank (before c (List.mem_of_getLast? last)),
    fun c first => spellsItself_of_isBlank (after c (List.mem_of_head? first))⟩

/-- The paragraphs of a text are parts of it, without breaks and without blanks around them. -/
theorem paragraph_of_mem {paragraph : List Char} (member : paragraph ∈ paragraphs cs) :
    IsParagraph paragraph ∧ IsPart paragraph cs := by
  obtain ⟨among, nonempty⟩ := List.mem_filter.mp member
  obtain ⟨piece, cut, rfl⟩ := List.mem_map.mp among
  obtain ⟨unbroken, isPart⟩ := (breaks_cutAtBreaks (trimmed cs) le_rfl).parts piece cut
  obtain ⟨front, back, split, -⟩ := trimmed_split piece
  have inner : IsUnbroken (trimmed piece) := by
    rw [split] at unbroken
    exact unbroken.middle
  exact ⟨⟨by simpa using nonempty, isTrimmed_trimmed piece, inner⟩,
    (isPart_trimmed piece).trans (isPart.trans (isPart_trimmed cs))⟩

theorem takeWhile_isBlank_of_visible {c : Char} (visible : isBlank c = false) (member : c ∈ front)
    (back : List Char) : (front ++ back).takeWhile isBlank = front.takeWhile isBlank := by
  rw [List.takeWhile_append, if_neg]
  intro all
  have whole := (List.takeWhile_prefix isBlank).eq_of_length all
  rw [← whole] at member
  rw [List.mem_takeWhile_imp member] at visible
  cases visible

/-- A paragraph is not broken up, whatever stands behind it. -/
theorem cutAtBreaks_append (unbroken : IsUnbroken front)
    (ends : ∀ c ∈ front.getLast?, isBlank c = false) (fuel : Nat) {first : List Char}
    {others : List (List Char)} (rest : cutAtBreaks fuel back = first :: others) :
    cutAtBreaks (front.length + fuel) (front ++ back) = (front ++ first) :: others := by
  induction front with
  | nil => simpa using rest
  | cons c front ih =>
      have goesOn : c = '\n' → '\n' ∉ (front ++ back).takeWhile isBlank := by
        rintro rfl
        cases front with
        | nil => exact absurd (ends '\n' rfl) (by decide)
        | cons d front =>
            obtain ⟨last, found⟩ := List.getLast?_isSome.mpr (List.cons_ne_nil d front) |>
              Option.isSome_iff_exists.mp
            rw [takeWhile_isBlank_of_visible (ends last (by simpa using found))
              (List.mem_of_getLast? found)]
            exact unbroken [] (d :: front) rfl
      have inside : IsUnbroken front := by
        have whole : IsUnbroken ([c] ++ front ++ []) := by simpa using unbroken
        exact whole.middle
      have visible : ∀ d ∈ front.getLast?, isBlank d = false := by
        intro d found
        apply ends d
        cases front with
        | nil => cases found
        | cons => simpa using found
      have length : (c :: front).length + fuel = (front.length + fuel) + 1 := by
        rw [List.length_cons]
        omega
      rw [length, List.cons_append, cutAtBreaks, afterBreak?_eq_none_iff.mpr goesOn]
      dsimp only
      rw [ih inside visible]
      rfl

theorem cutAtBreaks_nil (fuel : Nat) : cutAtBreaks fuel [] = [[]] := by
  cases fuel <;> rfl

/-- A text of paragraphs, with an empty line between one and the next. -/
def spaced (parts : List (List Char)) : List Char :=
  ['\n', '\n'].intercalate parts

theorem spaced_cons_cons (part next : List Char) (parts : List (List Char)) :
    spaced (part :: next :: parts) = part ++ '\n' :: '\n' :: spaced (next :: parts) := by
  simp [spaced, List.intercalate_cons_cons]

theorem spaced_trimmed {parts : List (List Char)}
    (paragraphs : ∀ part ∈ parts, IsParagraph part) :
    IsTrimmed (spaced parts) ∧ (parts ≠ [] → spaced parts ≠ []) := by
  induction parts with
  | nil => exact ⟨isTrimmed_nil, by simp⟩
  | cons part parts ih =>
      obtain ⟨nonempty, trimmed, -⟩ := paragraphs part List.mem_cons_self
      obtain ⟨rest, some⟩ :=
        ih fun other among => paragraphs other (List.mem_cons_of_mem part among)
      cases parts with
      | nil => exact ⟨by simpa [spaced] using trimmed, fun _ => by simpa [spaced] using nonempty⟩
      | cons next parts =>
          have whole : spaced (part :: next :: parts) =
              part ++ ['\n', '\n'] ++ spaced (next :: parts) := by
            simp [spaced_cons_cons]
          rw [whole]
          exact ⟨trimmed.around nonempty _ rest (some (List.cons_ne_nil _ _)),
            fun _ => by simp [nonempty]⟩

/-- Between one paragraph and the next an empty line is a break. -/
theorem cutAtBreaks_spaced {parts : List (List Char)} (someParts : parts ≠ [])
    (paragraphs : ∀ part ∈ parts, IsParagraph part) {fuel : Nat}
    (enough : (spaced parts).length ≤ fuel) : cutAtBreaks fuel (spaced parts) = parts := by
  induction parts generalizing fuel with
  | nil => exact absurd rfl someParts
  | cons part parts ih =>
      obtain ⟨-, trimmed, unbroken⟩ := paragraphs part List.mem_cons_self
      obtain ⟨fuel, rfl⟩ := Nat.exists_eq_add_of_le enough
      cases parts with
      | nil =>
          have cut := cutAtBreaks_append unbroken trimmed.ends fuel (cutAtBreaks_nil fuel)
          simpa [spaced] using cut
      | cons next parts =>
          have others : ∀ part ∈ next :: parts, IsParagraph part :=
            fun other among => paragraphs other (List.mem_cons_of_mem part among)
          have begins := (spaced_trimmed others).1.begins
          have goesOn : afterLastBlankLine? (spaced (next :: parts)) = none := by
            rw [afterLastBlankLine?_eq_none_iff]
            cases rest : spaced (next :: parts) with
            | nil => simp
            | cons c rest =>
                have first := begins c (by rw [rest]; rfl)
                simp [first]
          have emptyLine : afterBreak? ('\n' :: '\n' :: spaced (next :: parts)) =
              .some (spaced (next :: parts)) := by
            simp [afterBreak?, afterLastBlankLine?, goesOn, isBlank_lineFeed]
          have length : (spaced (part :: next :: parts)).length + fuel =
              part.length + ((spaced (next :: parts)).length + fuel + 1 + 1) := by
            rw [spaced_cons_cons, List.length_append, List.length_cons, List.length_cons]
            omega
          have rest : cutAtBreaks ((spaced (next :: parts)).length + fuel + 1 + 1)
              ('\n' :: '\n' :: spaced (next :: parts)) = [] :: next :: parts := by
            rw [cutAtBreaks, emptyLine]
            dsimp only
            rw [ih (List.cons_ne_nil _ _) others (by omega)]
          rw [length, spaced_cons_cons, cutAtBreaks_append unbroken trimmed.ends _ rest,
            List.append_nil]

/-- Paragraphs that are written with empty lines between them and blanks at the end are read
again. -/
theorem paragraphs_spaced {parts : List (List Char)}
    (paragraphs : ∀ part ∈ parts, IsParagraph part) {blanks : List Char}
    (blank : ∀ c ∈ blanks, isBlank c = true) :
    Text.paragraphs (spaced parts ++ blanks) = parts := by
  have body : trimmed (spaced parts ++ blanks) = spaced parts := by
    have nothing : ∀ c ∈ [], isBlank c = true := by simp
    simpa using trimmed_of_isTrimmed (spaced_trimmed paragraphs).1 nothing blank
  rw [Text.paragraphs, body]
  cases parts with
  | nil => rfl
  | cons part parts =>
      have same : (part :: parts).map trimmed = part :: parts :=
        (List.map_congr_left fun other among => (paragraphs other among).trimmed.trimmed_eq).trans
          (List.map_id _)
      rw [cutAtBreaks_spaced (List.cons_ne_nil _ _) paragraphs le_rfl, same,
        List.filter_eq_self]
      intro other among
      simpa using (paragraphs other among).nonempty

end Jianpu.Text
