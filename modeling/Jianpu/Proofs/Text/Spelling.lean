import Jianpu.Text.Utf8
import Mathlib.Data.List.TakeWhile

/-! Texts as their code points are spelled. A character that is no mark and no
stand-in spells itself wherever it stands, so a spelling can be cut there. -/

set_option autoImplicit false

namespace Jianpu.Text

/-- Characters that spell code points of a kind. -/
def SpellsOnly (kind : CodePoint → Prop) (cs : List Char) : Prop :=
  ∃ points : List CodePoint, (∀ point ∈ points, kind point) ∧
    cs = points.flatMap CodePoint.spelling

/-- Characters that spell code points. -/
abbrev IsSpelled (cs : List Char) : Prop :=
  SpellsOnly (fun _ => True) cs

/-- Characters that spell characters, and no half of a pair. -/
abbrev IsText (cs : List Char) : Prop :=
  SpellsOnly (fun point => point.isHalf = false) cs

/-- A character that spells itself. -/
def SpellsItself (c : Char) : Prop :=
  c ≠ CodePoint.mark ∧ CodePoint.standsFor? c = none

/-- Characters below the stand-ins spell themselves. -/
theorem spellsItself_of_lt {c : Char} (below : c.toNat < CodePoint.firstStandIn) :
    SpellsItself c := by
  refine ⟨?_, ?_⟩
  · rintro rfl
    revert below
    decide
  · rw [CodePoint.standsFor?, dif_neg]
    omega

namespace CodePoint

theorem spelling_char {c : Char} :
    SpellsItself c ∧ (char c).spelling = [c] ∨
      ¬ SpellsItself c ∧ (char c).spelling = [mark, c] := by
  by_cases special : c = mark ∨ (standsFor? c).isSome
  · refine .inr ⟨?_, by simp [spelling, special]⟩
    rintro ⟨notMark, noStandIn⟩
    simp [notMark, noStandIn] at special
  · refine .inl ⟨?_, by simp [spelling, special]⟩
    obtain ⟨notMark, noStandIn⟩ := not_or.mp special
    exact ⟨notMark, by simpa using noStandIn⟩

theorem spelling_of_mem {point : CodePoint} {c : Char} (itself : SpellsItself c)
    (member : c ∈ point.spelling) : point.spelling = [c] := by
  cases point with
  | half index =>
      obtain rfl := List.mem_singleton.mp member
      rfl
  | char d =>
      rcases spelling_char (c := d) with ⟨-, alone⟩ | ⟨other, marked⟩
      · rw [alone] at member ⊢
        rw [List.mem_singleton.mp member]
      · rw [marked, List.mem_cons, List.mem_singleton] at member
        rcases member with rfl | rfl
        · exact absurd rfl itself.1
        · exact absurd itself other

end CodePoint

variable {kind : CodePoint → Prop} {front back cs : List Char}

theorem spellsOnly_nil : SpellsOnly kind [] :=
  ⟨[], by simp, rfl⟩

theorem spellsOnly_spelling {point : CodePoint} (isKind : kind point) :
    SpellsOnly kind point.spelling :=
  ⟨[point], by simpa using isKind, by simp⟩

theorem SpellsOnly.append (first : SpellsOnly kind front) (second : SpellsOnly kind back) :
    SpellsOnly kind (front ++ back) := by
  obtain ⟨points, kinds, rfl⟩ := first
  obtain ⟨others, otherKinds, rfl⟩ := second
  refine ⟨points ++ others, ?_, List.flatMap_append.symm⟩
  intro point member
  rcases List.mem_append.mp member with among | among
  · exact kinds point among
  · exact otherKinds point among

/-- A spelling starts with a code point of one character, or with a mark and the
character that it takes along. -/
theorem SpellsOnly.starts {c : Char} (spelled : SpellsOnly kind (c :: cs)) :
    SpellsOnly kind [c] ∧ SpellsOnly kind cs ∨
      c = CodePoint.mark ∧ ∃ d rest, cs = d :: rest ∧ ¬ SpellsItself d ∧
        SpellsOnly kind [c, d] ∧ SpellsOnly kind rest := by
  obtain ⟨points, kinds, split⟩ := spelled
  cases points with
  | nil => cases split
  | cons point points =>
      have first : SpellsOnly kind point.spelling :=
        spellsOnly_spelling (kinds point List.mem_cons_self)
      have rest : SpellsOnly kind (points.flatMap CodePoint.spelling) :=
        ⟨points, fun other among => kinds other (List.mem_cons_of_mem point among), rfl⟩
      rw [List.flatMap_cons] at split
      cases point with
      | half index =>
          obtain ⟨rfl, rfl⟩ := List.cons.inj split
          exact .inl ⟨first, rest⟩
      | char d =>
          rcases CodePoint.spelling_char (c := d) with ⟨-, alone⟩ | ⟨other, marked⟩
          · rw [alone] at first split
            obtain ⟨rfl, rfl⟩ := List.cons.inj split
            exact .inl ⟨first, rest⟩
          · rw [marked] at first split
            obtain ⟨rfl, rfl⟩ := List.cons.inj split
            exact .inr ⟨rfl, d, _, rfl, other, first, rest⟩

/-- A spelling is cut at a character that spells itself. -/
theorem SpellsOnly.cut {c : Char} (spelled : SpellsOnly kind (front ++ c :: back))
    (itself : SpellsItself c) : SpellsOnly kind front ∧ SpellsOnly kind back := by
  obtain ⟨points, kinds, split⟩ := spelled
  induction points generalizing front with
  | nil => simp at split
  | cons point points ih =>
      have first := kinds point List.mem_cons_self
      have rest : ∀ other ∈ points, kind other :=
        fun other among => kinds other (List.mem_cons_of_mem point among)
      rw [List.flatMap_cons] at split
      rcases List.append_eq_append_iff.mp split with ⟨middle, inside, after⟩ | ⟨middle, rfl, after⟩
      · cases middle with
        | nil =>
            have here : [] ++ c :: back = points.flatMap CodePoint.spelling := after
            obtain ⟨-, later⟩ := ih rest here
            rw [List.append_nil] at inside
            exact ⟨inside ▸ spellsOnly_spelling first, later⟩
        | cons d middle =>
            obtain ⟨rfl, rfl⟩ := List.cons.inj after
            have alone : point.spelling = [c] :=
              CodePoint.spelling_of_mem itself (by simp [inside])
            rw [alone] at inside
            have nothing : front = [] ∧ middle = [] := by
              cases front <;> simp_all
            obtain ⟨rfl, rfl⟩ := nothing
            exact ⟨spellsOnly_nil, points, rest, rfl⟩
      · obtain ⟨earlier, later⟩ := ih rest after.symm
        exact ⟨(spellsOnly_spelling first).append earlier, later⟩

/-! Parts of a text -/

/-- A stretch of a text between characters that spell themselves, or the ends. -/
def IsPart (part cs : List Char) : Prop :=
  ∃ front back, cs = front ++ part ++ back ∧ (∀ c ∈ front.getLast?, SpellsItself c) ∧
    ∀ c ∈ back.head?, SpellsItself c

namespace IsPart

variable {part whole : List Char}

theorem refl (cs : List Char) : IsPart cs cs :=
  ⟨[], [], by simp, by simp, by simp⟩

theorem trans (inner : IsPart part cs) (outer : IsPart cs whole) : IsPart part whole := by
  obtain ⟨front, back, rfl, before, after⟩ := inner
  obtain ⟨farFront, farBack, rfl, farBefore, farAfter⟩ := outer
  refine ⟨farFront ++ front, back ++ farBack, by simp, ?_, ?_⟩
  · intro c last
    rw [List.getLast?_append] at last
    rcases Option.or_eq_some_iff.mp last with near | ⟨-, far⟩
    · exact before c near
    · exact farBefore c far
  · intro c first
    rw [List.head?_append] at first
    rcases Option.or_eq_some_iff.mp first with near | ⟨-, far⟩
    · exact after c near
    · exact farAfter c far

theorem tail {c : Char} (itself : SpellsItself c) (rest : List Char) : IsPart rest (c :: rest) :=
  ⟨[c], [], by simp, by simpa using itself, by simp⟩

theorem drop (run : List Char) (itself : ∀ c ∈ run, SpellsItself c) (rest : List Char) :
    IsPart rest (run ++ rest) :=
  ⟨run, [], by simp, fun c last => itself c (List.mem_of_getLast? last), by simp⟩

theorem subset (isPart : IsPart part cs) : part ⊆ cs := by
  obtain ⟨front, back, rfl, -⟩ := isPart
  simp

theorem spellsOnly (isPart : IsPart part cs) (spelled : SpellsOnly kind cs) :
    SpellsOnly kind part := by
  obtain ⟨front, back, rfl, before, after⟩ := isPart
  have headed : SpellsOnly kind (front ++ part) := by
    cases back with
    | nil => simpa using spelled
    | cons c back => exact (spelled.cut (after c rfl)).1
  rcases List.eq_nil_or_concat front with rfl | ⟨front, c, rfl⟩
  · simpa using headed
  · rw [List.concat_append] at headed
    exact (headed.cut (before c (by simp))).2

end IsPart

theorem isText_cons {c : Char} (itself : SpellsItself c) (text : IsText cs) : IsText (c :: cs) := by
  have alone : (CodePoint.char c).spelling = [c] := by
    rcases CodePoint.spelling_char (c := c) with ⟨-, alone⟩ | ⟨other, -⟩
    · exact alone
    · exact absurd itself other
  have first : IsText (CodePoint.char c).spelling := spellsOnly_spelling rfl
  rw [alone] at first
  exact first.append text

/-- Characters that spell themselves spell characters. -/
theorem isText_of_spellsItself (itself : ∀ c ∈ cs, SpellsItself c) : IsText cs := by
  induction cs with
  | nil => exact spellsOnly_nil
  | cons c cs ih =>
      exact isText_cons (itself c List.mem_cons_self)
        (ih fun d among => itself d (List.mem_cons_of_mem c among))

/-- A text that a file keeps as it is: characters, with line feeds alone. -/
def IsFileText (cs : List Char) : Prop :=
  IsText cs ∧ '\r' ∉ cs

theorem IsFileText.append (first : IsFileText front) (second : IsFileText back) :
    IsFileText (front ++ back) := by
  refine ⟨first.1.append second.1, ?_⟩
  intro present
  rcases List.mem_append.mp present with among | among
  · exact first.2 among
  · exact second.2 among

theorem IsPart.isFileText {part : List Char} (isPart : IsPart part cs) (text : IsFileText cs) :
    IsFileText part :=
  ⟨isPart.spellsOnly text.1, fun present => text.2 (isPart.subset present)⟩

theorem isFileText_of_spellsItself (itself : ∀ c ∈ cs, SpellsItself c ∧ c ≠ '\r') :
    IsFileText cs :=
  ⟨isText_of_spellsItself fun c member => (itself c member).1,
    fun present => (itself _ present).2 rfl⟩

/-- A character below the stand-ins, such as those of ASCII, and no carriage return. -/
def isPlain (c : Char) : Bool :=
  decide (c.toNat < CodePoint.firstStandIn) && c != '\r'

theorem isFileText_of_plain (plain : cs.all isPlain = true) : IsFileText cs := by
  refine isFileText_of_spellsItself ?_
  intro c member
  have fits := List.all_eq_true.mp plain c member
  simp only [isPlain, Bool.and_eq_true, decide_eq_true_eq, bne_iff_ne] at fits
  exact ⟨spellsItself_of_lt fits.1, fits.2⟩

theorem IsText.isSpelled (text : IsText cs) : IsSpelled cs := by
  obtain ⟨points, -, rfl⟩ := text
  exact ⟨points, by simp, rfl⟩

theorem codePoints_ofList_flatMap (points : List CodePoint) :
    codePoints (String.ofList (points.flatMap CodePoint.spelling)) = points :=
  codePoints_ofCodePoints points

theorem encodingFault?_eq_none_iff {text : String} :
    Utf8.encodingFault? text = none ↔ ∀ point ∈ codePoints text, point.isHalf = false := by
  unfold Utf8.encodingFault? Utf8.faultUnless?
  dsimp only
  generalize codePoints text = points
  simp only [Bool.or_false]
  constructor
  · intro clear
    split at clear
    · rename_i ended
      have all : points.takeWhile (fun point => !point.isHalf) = points :=
        (List.takeWhile_prefix _).eq_of_length_le (List.drop_eq_nil_iff.mp ended)
      intro point member
      rw [← all] at member
      simpa using List.mem_takeWhile_imp member
    · cases clear
  · intro whole
    have all : points.takeWhile (fun point => !point.isHalf) = points :=
      List.takeWhile_eq_self_iff.mpr (by simpa using whole)
    rw [all, List.drop_length]

/-- A spelled text without lone halves spells characters only. -/
theorem isText_of_clear (spelled : IsSpelled cs)
    (clear : Utf8.encodingFault? (String.ofList cs) = none) : IsText cs := by
  obtain ⟨points, -, rfl⟩ := spelled
  rw [encodingFault?_eq_none_iff, codePoints_ofList_flatMap] at clear
  exact ⟨points, clear, rfl⟩

end Jianpu.Text
