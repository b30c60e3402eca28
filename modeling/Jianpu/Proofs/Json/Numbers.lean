import Jianpu.Json.Reader
import Jianpu.Json.Writer
import Jianpu.Proofs.Text.Run
import Mathlib.Algebra.Ring.Nat
import Mathlib.Data.List.Induction

/-! Whole numbers read back as they are written. A numeral ends where no
character goes on with it, and it is read at all only when it is not too long. -/

set_option autoImplicit false

namespace Jianpu.Json

open Number (Amount)

/-- A whole number whose numeral is short enough to be read. -/
def IsShort (n : Int) : Prop :=
  (Nat.toDigits 10 n.natAbs).length ≤ Text.maxNumeralDigits

instance (n : Int) : Decidable (IsShort n) :=
  inferInstanceAs (Decidable (_ ≤ _))

/-- A number that is read as it is written: a whole one that is short. -/
def IsReadable : Amount → Prop
  | .whole n => IsShort n
  | .real _ => False

/-- A text that does not go on with a numeral. -/
def EndsNumeral (rest : List Char) : Prop :=
  ∀ c ∈ rest.head?, c.isDigit = false ∧ c ≠ '.' ∧ c ≠ 'e' ∧ c ≠ 'E'

theorem isShort_iff (n : Int) : IsShort n ↔ n.natAbs < 10 ^ Text.maxNumeralDigits :=
  Nat.length_toDigits_le_iff (by decide) (by decide)

/-! Reading what is written -/

theorem asciiDigits_append {digits rest : List Char} (allDigits : ∀ c ∈ digits, c.isDigit = true)
    (ends : EndsNumeral rest) : asciiDigits (digits ++ rest) = (digits, rest) := by
  obtain ⟨taken, dropped⟩ := Text.takeWhile_run allDigits fun c first => (ends c first).1
  rw [asciiDigits, taken, dropped]

theorem fraction_of_ends {rest : List Char} (ends : EndsNumeral rest) :
    fraction rest = ([], rest) := by
  unfold fraction
  split
  · exact absurd rfl (ends '.' rfl).2.1
  · rfl

theorem exponent?_of_ends {rest : List Char} (ends : EndsNumeral rest) :
    exponent? rest = none := by
  cases rest with
  | nil => rfl
  | cons c rest =>
      have notMark : ¬ (c = 'e' ∨ c = 'E') := not_or.mpr (ends c rfl).2.2
      simp only [exponent?, notMark, ↓reduceIte]

/-- Only the numeral of zero starts with a zero. -/
theorem toDigits_zero_start {n : Nat} {more : List Char}
    (start : Nat.toDigits 10 n = '0' :: more) : more = [] := by
  induction n using Nat.strongRecOn generalizing more with
  | ind n ih =>
      rw [Nat.toDigits_eq_if (by decide)] at start
      split at start
      · exact (List.cons.inj start).2.symm
      · rename_i large
        cases front : Nat.toDigits 10 (n / 10) with
        | nil => exact absurd front Nat.toDigits_ne_nil
        | cons c others =>
            rw [front, List.cons_append] at start
            obtain ⟨rfl, -⟩ := List.cons.inj start
            have alone := ih (n / 10) (by omega) front
            subst alone
            have value := Nat.ofDigitChars_ten_toDigits (n := n / 10)
            rw [front] at value
            have zero : Nat.ofDigitChars 10 ['0'] 0 = 0 := by decide
            omega

theorem ofAsciiDigits_toDigits (n : Nat) : ofAsciiDigits (Nat.toDigits 10 n) = n :=
  Nat.ofDigitChars_ten_toDigits

theorem isDigit_toDigits {n : Nat} : ∀ c ∈ Nat.toDigits 10 n, c.isDigit = true :=
  fun _ => Nat.isDigit_of_mem_toDigits (by decide) (by decide)

theorem toDigits_eq_cons (n : Nat) :
    ∃ c others, Nat.toDigits 10 n = c :: others ∧ c.isDigit = true := by
  cases spelled : Nat.toDigits 10 n with
  | nil => exact absurd spelled Nat.toDigits_ne_nil
  | cons c others => exact ⟨c, others, rfl, isDigit_toDigits c (spelled ▸ List.mem_cons_self)⟩

theorem ne_of_isDigit {c d : Char} (digit : c.isDigit = true) (noDigit : d.isDigit = false) :
    c ≠ d := by
  rintro rfl
  rw [digit] at noDigit
  cases noDigit

/-- A numeral without needless zeros is read with the sign in front of it. -/
theorem unsignedNumber?_append (negative : Bool) {digits rest : List Char}
    (someDigit : digits ≠ []) (allDigits : ∀ c ∈ digits, c.isDigit = true)
    (noZeros : ∀ more, digits = '0' :: more → more = [])
    (short : digits.length ≤ Text.maxNumeralDigits) (ends : EndsNumeral rest) :
    unsignedNumber? negative (digits ++ rest) =
      some (.whole (if negative then -(ofAsciiDigits digits : Int) else ofAsciiDigits digits),
        rest) := by
  rw [unsignedNumber?, asciiDigits_append allDigits ends]
  cases digits with
  | nil => exact absurd rfl someDigit
  | cons c more =>
      by_cases zero : c = '0'
      · subst zero
        obtain rfl := noZeros more rfl
        simp [fraction_of_ends ends, exponent?_of_ends ends, Text.maxNumeralDigits]
      · have notLong := Nat.not_lt.mpr short
        rw [List.length_cons] at notLong
        simp [zero, fraction_of_ends ends, exponent?_of_ends ends, notLong]

theorem unsignedNumber?_toDigits (negative : Bool) {n : Nat} {rest : List Char}
    (short : (Nat.toDigits 10 n).length ≤ Text.maxNumeralDigits) (ends : EndsNumeral rest) :
    unsignedNumber? negative (Nat.toDigits 10 n ++ rest) =
      some (.whole (if negative then -(n : Int) else n), rest) := by
  rw [unsignedNumber?_append negative Nat.toDigits_ne_nil isDigit_toDigits
    (fun _ => toDigits_zero_start) short ends, ofAsciiDigits_toDigits]

theorem after?_toDigits {letter : Char} (noDigit : letter.isDigit = false) (name : List Char)
    (n : Nat) (rest : List Char) :
    after? (letter :: name) (Nat.toDigits 10 n ++ rest) = none := by
  obtain ⟨c, others, spelled, digit⟩ := toDigits_eq_cons n
  rw [spelled, List.cons_append, after?, if_neg (ne_of_isDigit digit noDigit).symm]

theorem number?_toDigits {n : Nat} {rest : List Char}
    (short : (Nat.toDigits 10 n).length ≤ Text.maxNumeralDigits) (ends : EndsNumeral rest) :
    number? (Nat.toDigits 10 n ++ rest) = some (.whole n, rest) := by
  rw [number?]
  · simp only [String.reduceToList, after?_toDigits (by decide : 'I'.isDigit = false),
      after?_toDigits (by decide : 'N'.isDigit = false), unsignedNumber?_toDigits false short ends,
      Bool.false_eq_true, ↓reduceIte]
  · intro more start
    obtain ⟨c, others, spelled, digit⟩ := toDigits_eq_cons n
    rw [spelled, List.cons_append] at start
    exact ne_of_isDigit digit (by decide) (List.cons.inj start).1

theorem number?_minus_toDigits {n : Nat} {rest : List Char}
    (short : (Nat.toDigits 10 n).length ≤ Text.maxNumeralDigits) (ends : EndsNumeral rest) :
    number? ('-' :: (Nat.toDigits 10 n ++ rest)) = some (.whole (-n), rest) := by
  rw [number?]
  simp only [String.reduceToList, after?_toDigits (by decide : 'I'.isDigit = false),
    unsignedNumber?_toDigits true short ends, ↓reduceIte]

/-- A short whole number is read as it is written, up to where it ends. -/
theorem number?_toString {n : Int} {rest : List Char} (short : IsShort n)
    (ends : EndsNumeral rest) :
    number? ((toString n).toList ++ rest) = some (.whole n, rest) := by
  rw [Int.toString_eq_repr]
  cases n with
  | ofNat n =>
      rw [Int.repr, Nat.toList_repr]
      exact number?_toDigits short ends
  | negSucc n =>
      rw [Int.repr, String.toList_append, Nat.toList_repr]
      exact number?_minus_toDigits short ends

/-! What is read -/

theorem ofAsciiDigits_lt {digits : List Char} (allDigits : ∀ c ∈ digits, c.isDigit = true) :
    ofAsciiDigits digits < 10 ^ digits.length := by
  induction digits using List.reverseRecOn with
  | nil => decide
  | append_singleton digits c ih =>
      have front := ih fun other member => allDigits other (List.mem_append_left _ member)
      have digit : c.isDigit = true := allDigits c (by simp)
      have small : c.toNat - 48 < 10 := by
        have atMostNine : c.toNat ≤ 57 := (Char.isDigit_iff_toNat.mp digit).2
        omega
      have last : ofAsciiDigits (digits ++ [c]) = 10 * ofAsciiDigits digits + (c.toNat - 48) := by
        simp only [ofAsciiDigits, List.foldl_append, List.foldl_cons, List.foldl_nil]
      rw [last, List.length_append, List.length_singleton, Nat.pow_succ]
      omega

theorem isShort_of_digits {digits : List Char} (allDigits : ∀ c ∈ digits, c.isDigit = true)
    (short : digits.length ≤ Text.maxNumeralDigits) (negative : Bool) :
    IsShort (if negative then -(ofAsciiDigits digits : Int) else ofAsciiDigits digits) := by
  have magnitude : (if negative then -(ofAsciiDigits digits : Int)
      else ofAsciiDigits digits).natAbs = ofAsciiDigits digits := by
    cases negative <;> simp
  rw [isShort_iff, magnitude]
  exact Nat.lt_of_lt_of_le (ofAsciiDigits_lt allDigits) (Nat.pow_le_pow_right (by decide) short)

theorem isShort_of_unsignedNumber? {negative : Bool} {cs rest : List Char} {n : Int}
    (read : unsignedNumber? negative cs = some (.whole n, rest)) : IsShort n := by
  have zero : ∀ c ∈ ['0'], c.isDigit = true := by simp
  have run : ∀ c ∈ cs.takeWhile Char.isDigit, c.isDigit = true :=
    fun _ member => List.mem_takeWhile_imp member
  unfold unsignedNumber? at read
  dsimp only [asciiDigits] at read
  split at read
  all_goals
    split at read
    · cases read
    · split at read
      · split at read
        · split at read
          · cases read
          · rename_i short
            cases read
            first
            | exact isShort_of_digits zero (Nat.le_of_not_lt short) negative
            | exact isShort_of_digits run (Nat.le_of_not_lt short) negative
        · cases read
      · cases read

theorem isShort_of_number? {cs rest : List Char} {n : Int}
    (read : number? cs = some (.whole n, rest)) : IsShort n := by
  unfold number? at read
  split at read
  · split at read
    · cases read
    · exact isShort_of_unsignedNumber? read
  · split at read
    · cases read
    · split at read
      · cases read
      · exact isShort_of_unsignedNumber? read

end Jianpu.Json
