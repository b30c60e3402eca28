import Jianpu.Proofs.Text.Trimming
import Jianpu.Text.Numeral
import Mathlib.Data.List.Induction
import Mathlib.Data.Nat.Digits.Defs

/-! Numerals of whole numbers, in the digits of any script. What is read of a text without blanks
at its ends, without a plus sign and without underscores is its numeral, and nothing else is. -/

set_option autoImplicit false

namespace Jianpu.Text

/-! What is compared -/

/-- One to 4300 decimal digits of any script, the greatest first, and the number they stand for. -/
def Spells (digits : List Char) (n : Nat) : Prop :=
  ∃ values, List.Forall₂ (fun c value => decimalValue? c = some value) digits values ∧
    values ≠ [] ∧ values.length ≤ 4300 ∧ n = Nat.ofDigits 10 values.reverse

/-- The numeral of a whole number: digits, with at most one hyphen in front of them. -/
inductive IsNumeral : List Char → Int → Prop where
  | plain {digits : List Char} {n : Nat} (spells : Spells digits n) : IsNumeral digits n
  | negated {digits : List Char} {n : Nat} (spells : Spells digits n) :
      IsNumeral ('-' :: digits) (-n)

/-! Digits -/

theorem ofDigitValues_eq (values : List Nat) :
    ofDigitValues values = Nat.ofDigits 10 values.reverse := by
  induction values using List.reverseRecOn with
  | nil => rfl
  | append_singleton values value ih =>
      rw [ofDigitValues] at ih
      rw [ofDigitValues, List.foldl_append, ih, List.reverse_append, List.reverse_singleton,
        List.singleton_append, Nat.ofDigits_cons, List.foldl_cons, List.foldl_nil, Nat.add_comm]

theorem isSome_of_spells {digits : List Char} {n : Nat} (spells : Spells digits n) :
    ∀ c ∈ digits, (decimalValue? c).isSome = true := by
  obtain ⟨values, valued, -⟩ := spells
  induction valued with
  | nil => simp
  | cons first _ ih => exact List.forall_mem_cons.mpr ⟨Option.isSome_of_eq_some first, ih⟩

theorem ne_nil_of_spells {digits : List Char} {n : Nat} (spells : Spells digits n) :
    digits ≠ [] := by
  obtain ⟨values, valued, some, -⟩ := spells
  intro none
  subst none
  cases valued
  exact some rfl

/-- Without underscores a run of digits goes on up to the first character that has no value. -/
theorem digitRun_of_plain {cs : List Char} (plain : '_' ∉ cs) (afterDigit : Bool) :
    ∃ digits rest values, cs = digits ++ rest ∧
      List.Forall₂ (fun c value => decimalValue? c = some value) digits values ∧
      (∀ c ∈ rest.head?, decimalValue? c = none) ∧ digitRun afterDigit cs = (values, rest) := by
  induction cs generalizing afterDigit with
  | nil => exact ⟨[], [], [], rfl, .nil, by simp, rfl⟩
  | cons c cs ih =>
      obtain ⟨notFirst, notLater⟩ := not_or.mp (List.mem_cons.not.mp plain)
      have solid : ¬ (c = '_' ∧ afterDigit = true ∧ startsWithDigit cs = true) :=
        fun passed => notFirst passed.1.symm
      cases valued : decimalValue? c with
      | none =>
          refine ⟨[], c :: cs, [], rfl, .nil, ?_, ?_⟩
          · intro first same
            obtain rfl := Option.some.inj same
            exact valued
          · rw [digitRun, if_neg solid, valued]
      | some value =>
          obtain ⟨digits, rest, values, split, run, stops, read⟩ := ih notLater true
          refine ⟨c :: digits, rest, value :: values, ?_, .cons valued run, stops, ?_⟩
          · rw [split, List.cons_append]
          · rw [digitRun, if_neg solid, valued]
            dsimp only
            rw [read]

theorem valued_unique {digits : List Char} {values others : List Nat}
    (first : List.Forall₂ (fun c value => decimalValue? c = some value) digits values)
    (second : List.Forall₂ (fun c value => decimalValue? c = some value) digits others) :
    others = values := by
  induction first generalizing others with
  | nil =>
      cases second
      rfl
  | cons valued _ ih =>
      cases second with
      | cons otherValued more =>
          rw [ih more, Option.some.inj (otherValued.symm.trans valued)]

/-- Digits are spelled exactly where a run of them takes all that there is. -/
theorem spells_iff {cs : List Char} (plain : '_' ∉ cs) {n : Nat} :
    Spells cs n ↔ ∃ values, digitRun false cs = (values, []) ∧ values ≠ [] ∧
      values.length ≤ maxNumeralDigits ∧ n = ofDigitValues values := by
  obtain ⟨digits, rest, values, split, run, stops, read⟩ := digitRun_of_plain plain false
  constructor
  · intro spells
    obtain ⟨others, valued, some, short, number⟩ := spells
    have whole : rest = [] := by
      cases rest with
      | nil => rfl
      | cons c rest =>
          have member : c ∈ cs := by
            rw [split]
            exact List.mem_append_right _ List.mem_cons_self
          have value := isSome_of_spells ⟨others, valued, some, short, number⟩ c member
          rw [stops c rfl] at value
          cases value
    subst whole
    rw [List.append_nil] at split
    subst split
    obtain rfl := valued_unique run valued
    exact ⟨others, read, some, short, number.trans (ofDigitValues_eq others).symm⟩
  · intro found
    obtain ⟨others, taken, some, short, number⟩ := found
    rw [read] at taken
    obtain ⟨rfl, rfl⟩ := Prod.mk.inj taken
    rw [List.append_nil] at split
    exact ⟨values, split ▸ run, some, short, number.trans (ofDigitValues_eq values)⟩

/-! Reading -/

/-- What is read behind the sign. -/
def readUnsigned (negative : Bool) (unsigned : List Char) : Except NumeralFault Int :=
  let (values, remainder) := digitRun false unsigned
  if maxNumeralDigits < values.length then .error (.tooLong values.length)
  else if values.isEmpty || !remainder.isEmpty then .error .malformed
  else
    let magnitude := ofDigitValues values
    .ok (if negative then -(magnitude : Int) else magnitude)

theorem readUnsigned_eq_ok_iff {unsigned : List Char} (plain : '_' ∉ unsigned) {negative : Bool}
    {n : Int} :
    readUnsigned negative unsigned = .ok n ↔
      ∃ magnitude : Nat, Spells unsigned magnitude ∧
        n = if negative then -(magnitude : Int) else magnitude := by
  simp only [spells_iff plain]
  cases read : digitRun false unsigned with
  | mk values remainder =>
      simp only [readUnsigned, read]
      constructor
      · intro result
        split at result
        · cases result
        · rename_i short
          split at result
          · cases result
          · rename_i whole
            simp only [Bool.or_eq_true, Bool.not_eq_true', not_or, List.isEmpty_iff,
              Bool.not_eq_false] at whole
            obtain ⟨some, rfl⟩ := whole
            exact ⟨_, ⟨values, rfl, some, Nat.le_of_not_lt short, rfl⟩,
              (Except.ok.inj result).symm⟩
      · intro found
        obtain ⟨magnitude, ⟨others, same, some, short, rfl⟩, rfl⟩ := found
        obtain ⟨rfl, rfl⟩ := Prod.mk.inj same
        have filled : values.isEmpty = false := by simpa using some
        simp only [if_neg (Nat.not_lt.mpr short), filled, List.isEmpty_nil, Bool.not_true,
          Bool.or_false, Bool.false_eq_true, ↓reduceIte]

theorem isBlank_of_isMargin {c : Char} (margin : isMargin c = true) : isBlank c = true := by
  rw [isMargin, Bool.and_eq_true] at margin
  exact margin.1

/-- A text without blanks at its ends has no margins to drop. -/
theorem IsTrimmed.dropMargins {cs : List Char} (trimmed : IsTrimmed cs) :
    dropEndWhile isMargin (cs.dropWhile isMargin) = cs := by
  have inked : ∀ c, isBlank c = false → isMargin c = false := by
    intro c visible
    cases margin : isMargin c with
    | false => rfl
    | true => rw [isBlank_of_isMargin margin] at visible; cases visible
  have nothing : ∀ c ∈ ([] : List Char), isMargin c = true := by simp
  have ends : ∀ c ∈ cs.reverse.head?, isMargin c = false := by
    intro c last
    rw [List.head?_reverse] at last
    exact inked c (trimmed.ends c last)
  have front := (takeWhile_run nothing fun c first => inked c (trimmed.begins c first)).2
  have back := (takeWhile_run nothing ends).2
  rw [List.nil_append] at front back
  rw [front, dropEndWhile, back, List.reverse_reverse]

theorem readInt_of_hyphen {unsigned : List Char} (trimmed : IsTrimmed ('-' :: unsigned)) :
    readInt ('-' :: unsigned) = readUnsigned true unsigned := by
  rw [readInt, trimmed.dropMargins]
  rfl

theorem readInt_of_unsigned {cs : List Char} (trimmed : IsTrimmed cs)
    (noHyphen : ∀ unsigned, cs ≠ '-' :: unsigned) (noPlus : '+' ∉ cs) :
    readInt cs = readUnsigned false cs := by
  rw [readInt, trimmed.dropMargins]
  split
  rename_i negative unsigned sign
  split at sign
  · rename_i rest
    exact absurd rfl (noHyphen rest)
  · exact absurd List.mem_cons_self noPlus
  · obtain ⟨rfl, rfl⟩ := Prod.mk.inj sign
    rfl

theorem not_spells_hyphen {unsigned : List Char} {n : Nat} : ¬ Spells ('-' :: unsigned) n := by
  intro spells
  have value := isSome_of_spells spells '-' List.mem_cons_self
  revert value
  decide

/-- Nothing but the numeral of a number is read as it. -/
theorem readInt_eq_ok_iff {cs : List Char} (trimmed : IsTrimmed cs) (noUnderscore : '_' ∉ cs)
    (noPlus : '+' ∉ cs) {n : Int} : readInt cs = .ok n ↔ IsNumeral cs n := by
  by_cases signed : ∃ unsigned, cs = '-' :: unsigned
  · obtain ⟨unsigned, rfl⟩ := signed
    rw [readInt_of_hyphen trimmed,
      readUnsigned_eq_ok_iff (List.not_mem_of_not_mem_cons noUnderscore)]
    constructor
    · intro found
      obtain ⟨magnitude, spells, rfl⟩ := found
      exact .negated spells
    · intro isNumeral
      cases isNumeral with
      | plain spells => exact absurd spells not_spells_hyphen
      | negated spells => exact ⟨_, spells, rfl⟩
  · have noHyphen : ∀ unsigned, cs ≠ '-' :: unsigned :=
      fun unsigned same => signed ⟨unsigned, same⟩
    rw [readInt_of_unsigned trimmed noHyphen noPlus, readUnsigned_eq_ok_iff noUnderscore]
    constructor
    · intro found
      obtain ⟨magnitude, spells, rfl⟩ := found
      exact .plain spells
    · intro isNumeral
      cases isNumeral with
      | plain spells => exact ⟨_, spells, rfl⟩
      | negated spells => exact absurd rfl (noHyphen _)

end Jianpu.Text
