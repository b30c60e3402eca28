import Jianpu.Drawing.Svg
import Jianpu.Proofs.Json.Reals
import Jianpu.Proofs.Number.Rounding

/-! Coordinates as they are printed. A whole number is printed as it is, any other number with at
most two places. Both are the numeral of a number of hundredths, the nearest one, so that what is
printed is close to the number and in the order of the numbers. -/

set_option autoImplicit false

namespace Jianpu

open Number

namespace Svg

/-! What is compared -/

/-- A numeral with at most two places behind the point, the last of which is not zero. -/
@[ext]
structure Numeral where
  negative : Bool
  whole : List Char
  places : List Char
  isWhole : Json.IsWholePart whole
  placeDigits : ∀ c ∈ places, c.isDigit = true
  atMostTwo : places.length ≤ 2
  noZeroLast : places.getLast? ≠ some '0'

/-- Places behind their point, and no point without places. -/
def pointed : List Char → List Char
  | [] => []
  | place :: places => '.' :: place :: places

namespace Numeral

/-- The digits and the point. -/
def unsigned (numeral : Numeral) : List Char :=
  numeral.whole ++ pointed numeral.places

def text (numeral : Numeral) : String :=
  (if numeral.negative then "-" else "") ++ String.ofList numeral.unsigned

/-- The number that a numeral denotes. -/
def value (numeral : Numeral) : Rat :=
  (if numeral.negative then -1 else 1) *
    (Json.ofAsciiDigits numeral.whole +
      Json.ofAsciiDigits numeral.places / 10 ^ numeral.places.length)

end Numeral

/-! A text is the numeral of one number at most -/

theorem pointed_injective {first second : List Char} (same : pointed first = pointed second) :
    first = second := by
  cases first <;> cases second <;> simp_all [pointed]

theorem endsDigits_pointed (places : List Char) : Json.EndsDigits (pointed places) := by
  cases places with
  | nil => simp [pointed, Json.EndsDigits]
  | cons place places => exact Json.endsDigits_cons (by decide) _

namespace Numeral

theorem whole_and_places_of_unsigned {first second : Numeral}
    (same : first.unsigned = second.unsigned) :
    first.whole = second.whole ∧ first.places = second.places := by
  have cut (numeral : Numeral) :
      Json.asciiDigits numeral.unsigned = (numeral.whole, pointed numeral.places) :=
    Json.asciiDigits_run numeral.isWhole.toIsRun (endsDigits_pointed _)
  have parts := (cut first).symm.trans ((congrArg _ same).trans (cut second))
  obtain ⟨sameWhole, samePointed⟩ := Prod.mk.inj parts
  exact ⟨sameWhole, pointed_injective samePointed⟩

theorem toList_text (numeral : Numeral) :
    numeral.text.toList = (if numeral.negative then ['-'] else []) ++ numeral.unsigned := by
  rw [text, String.toList_append, String.toList_ofList]
  split <;> rfl

theorem negative_iff (numeral : Numeral) :
    numeral.negative = true ↔ numeral.text.toList.head? = some '-' := by
  obtain ⟨digit, more, spelled⟩ := List.exists_cons_of_ne_nil numeral.isWhole.nonempty
  have isDigit := numeral.isWhole.allDigits digit (spelled ▸ List.mem_cons_self)
  have noSign : digit ≠ '-' := Json.ne_of_isDigit isDigit (by decide)
  rw [toList_text, unsigned, spelled]
  cases numeral.negative <;> simp [noSign]

theorem text_injective {first second : Numeral} (same : first.text = second.text) :
    first = second := by
  have sameSign : first.negative = second.negative := by
    rw [Bool.eq_iff_iff, negative_iff, negative_iff, same]
  have sameChars := congrArg String.toList same
  rw [toList_text, toList_text, sameSign, List.append_cancel_left_eq] at sameChars
  obtain ⟨sameWhole, samePlaces⟩ := whole_and_places_of_unsigned sameChars
  exact Numeral.ext sameSign sameWhole samePlaces

end Numeral

/-! The numeral of a number of hundredths -/

/-- The places of less than a hundred hundredths. -/
def placesOf (rest : Nat) : List Char :=
  if rest = 0 then []
  else if rest % 10 = 0 then [Nat.digitChar (rest / 10)]
  else [Nat.digitChar (rest / 10), Nat.digitChar (rest % 10)]

theorem digitChar_of_lt_ten : ∀ digit < 10, (Nat.digitChar digit).isDigit = true ∧
    (Nat.digitChar digit).toNat - 48 = digit ∧ (Nat.digitChar digit = '0' → digit = 0) := by
  decide

theorem isDigit_placesOf {rest : Nat} (small : rest < 100) :
    ∀ c ∈ placesOf rest, c.isDigit = true := by
  have tens := (digitChar_of_lt_ten (rest / 10) (by omega)).1
  have units := (digitChar_of_lt_ten (rest % 10) (by omega)).1
  unfold placesOf
  split
  · simp
  · split <;> simp [tens, units]

theorem length_placesOf_le (rest : Nat) : (placesOf rest).length ≤ 2 := by
  unfold placesOf
  split
  · simp
  · split <;> simp

theorem getLast?_placesOf_ne {rest : Nat} (small : rest < 100) :
    (placesOf rest).getLast? ≠ some '0' := by
  obtain ⟨-, -, tens⟩ := digitChar_of_lt_ten (rest / 10) (by omega)
  obtain ⟨-, -, units⟩ := digitChar_of_lt_ten (rest % 10) (by omega)
  unfold placesOf
  split
  · simp
  · split
    · intro last
      have zero := tens (by simpa using last)
      omega
    · intro last
      exact absurd (units (by simpa using last)) ‹_›

theorem ofAsciiDigits_placesOf {rest : Nat} (small : rest < 100) :
    100 * Json.ofAsciiDigits (placesOf rest) = rest * 10 ^ (placesOf rest).length := by
  obtain ⟨-, tens, -⟩ := digitChar_of_lt_ten (rest / 10) (by omega)
  obtain ⟨-, units, -⟩ := digitChar_of_lt_ten (rest % 10) (by omega)
  unfold placesOf
  split
  · rename_i none
    rw [none]
    rfl
  · split
    · simp only [Json.ofAsciiDigits, List.foldl_cons, List.foldl_nil, List.length_singleton, tens]
      omega
    · simp only [Json.ofAsciiDigits, List.foldl_cons, List.foldl_nil, List.length_cons,
        List.length_nil, tens, units]
      omega

namespace Numeral

def ofHundredths (negative : Bool) (hundredths : Nat) : Numeral where
  negative
  whole := Nat.toDigits 10 (hundredths / 100)
  places := placesOf (hundredths % 100)
  isWhole := Json.isWholePart_toDigits _
  placeDigits := isDigit_placesOf (Nat.mod_lt _ (by decide))
  atMostTwo := length_placesOf_le _
  noZeroLast := getLast?_placesOf_ne (Nat.mod_lt _ (by decide))

theorem value_ofHundredths (negative : Bool) (hundredths : Nat) :
    (ofHundredths negative hundredths).value =
      (if negative then -1 else 1) * (hundredths / 100 : Rat) := by
  have scaled := ofAsciiDigits_placesOf (Nat.mod_lt hundredths (by decide : 0 < 100))
  have fraction : (Json.ofAsciiDigits (placesOf (hundredths % 100)) : Rat) /
      10 ^ (placesOf (hundredths % 100)).length = (hundredths % 100 : Nat) / 100 := by
    rw [div_eq_div_iff (by positivity) (by norm_num), mul_comm]
    exact_mod_cast scaled
  have parts : (hundredths : Rat) = 100 * (hundredths / 100 : Nat) + (hundredths % 100 : Nat) := by
    exact_mod_cast (Nat.div_add_mod hundredths 100).symm
  simp only [value, ofHundredths, Json.ofAsciiDigits_toDigits, fraction]
  rw [parts]
  congr 1
  rw [add_div, mul_div_cancel_left₀ _ (by norm_num)]

end Numeral

theorem hundredthsText_eq (hundredths : Nat) :
    hundredthsText hundredths =
      String.ofList (Numeral.ofHundredths false hundredths).unsigned := by
  apply String.toList_injective
  rw [String.toList_ofList]
  have small : hundredths % 100 < 100 := Nat.mod_lt _ (by decide)
  simp only [hundredthsText, Numeral.unsigned, Numeral.ofHundredths, placesOf]
  generalize hundredths % 100 = rest at small ⊢
  split
  · simp [pointed]
  · split
    · have alone := Nat.toDigits_of_lt_base (by omega : rest / 10 < 10)
      simp [pointed, alone]
    · by_cases lone : rest < 10
      · have alone := Nat.toDigits_of_lt_base lone
        have noTens : rest / 10 = 0 := Nat.div_eq_of_lt lone
        have units : rest % 10 = rest := Nat.mod_eq_of_lt lone
        simp [pointed, lone, alone, noTens, units]
      · have both := Nat.toDigits_of_base_le (by decide) (not_lt.mp lone)
        have tens := Nat.toDigits_of_lt_base (by omega : rest / 10 < 10)
        simp [pointed, lone, both, tens]

/-! The numeral of a coordinate -/

/-- The numeral of the nearest number of hundredths, with the sign of the coordinate. -/
def printed (coordinate : Rat) : Numeral :=
  .ofHundredths (coordinate < 0) (nearestEven (|coordinate| * 100)).toNat

theorem toString_eq_hundredthsText (n : Int) :
    toString n = (if n < 0 then "-" else "") ++ hundredthsText (n.natAbs * 100) := by
  have noRest (m : Nat) : hundredthsText (m * 100) = toString m := by
    simp [hundredthsText]
  rw [noRest]
  cases n with
  | ofNat n => exact String.empty_append.symm
  | negSucc n =>
      rw [if_pos (Int.negSucc_lt_zero n)]
      rfl

theorem coordinateText_eq (coordinate : Rat) :
    coordinateText coordinate = (printed coordinate).text := by
  have magnitude : (if coordinate < 0 then -coordinate else coordinate) = |coordinate| := by
    split
    · exact (abs_of_neg ‹_›).symm
    · exact (abs_of_nonneg (not_lt.mp ‹_›)).symm
  have spelled : (printed coordinate).text = (if coordinate < 0 then "-" else "") ++
      hundredthsText (nearestEven (|coordinate| * 100)).toNat := by
    simp [hundredthsText_eq, printed, Numeral.text, Numeral.unsigned, Numeral.ofHundredths]
  rw [spelled, coordinateText]
  split
  · -- A whole number of hundredths is its own nearest one, so that nothing is rounded.
    obtain ⟨n, rfl⟩ : ∃ n : Int, coordinate = n :=
      ⟨coordinate.num, ((Rat.den_eq_one_iff coordinate).mp ‹_›).symm⟩
    have hundredths : |(n : Rat)| * 100 = ((n.natAbs * 100 : Nat) : Int) := by
      push_cast
      rfl
    rw [hundredths, nearestEven_intCast, Int.toNat_natCast, Rat.num_intCast,
      toString_eq_hundredthsText]
    simp only [Int.cast_lt_zero]
  · rw [magnitude]

theorem value_printed (coordinate : Rat) :
    (printed coordinate).value = nearestEven (coordinate * 100) / 100 := by
  have nonneg : 0 ≤ nearestEven (|coordinate| * 100) := nearestEven_nonneg (by positivity)
  have count : ((nearestEven (|coordinate| * 100)).toNat : Rat) =
      nearestEven (|coordinate| * 100) := by
    exact_mod_cast Int.toNat_of_nonneg nonneg
  rw [printed, Numeral.value_ofHundredths, count]
  rcases lt_or_ge coordinate 0 with below | above
  · rw [abs_of_neg below, neg_mul, nearestEven_neg, if_pos (decide_eq_true below), Int.cast_neg,
      neg_div, neg_one_mul, neg_neg]
  · rw [abs_of_nonneg above, if_neg (by simpa using above), one_mul]

theorem value_printed_intCast (n : Int) : (printed n).value = n := by
  have hundredths : (n : Rat) * 100 = (n * 100 : Int) := by
    push_cast
    rfl
  rw [value_printed, hundredths, nearestEven_intCast, Int.cast_mul]
  exact mul_div_cancel_right₀ _ (by norm_num)

theorem abs_value_printed_sub_le (coordinate : Rat) :
    |(printed coordinate).value - coordinate| ≤ 1 / 200 := by
  have close := (isNearest_nearestEven (coordinate * 100)).1
  rw [value_printed, abs_sub_comm]
  rw [abs_le] at close ⊢
  constructor <;> linarith

theorem value_printed_mono {coordinate other : Rat} (ordered : coordinate ≤ other) :
    (printed coordinate).value ≤ (printed other).value := by
  have hundredths : nearestEven (coordinate * 100) ≤ nearestEven (other * 100) :=
    nearestEven_mono (by linarith)
  rw [value_printed, value_printed]
  have cast : (nearestEven (coordinate * 100) : Rat) ≤ nearestEven (other * 100) := by
    exact_mod_cast hundredths
  linarith

/-! Numbers of drawings -/

/-- A number that has a value is printed exactly if it fits binary64. -/
theorem amountText_eq_ok_iff {amount : Amount} {coordinate : Rat}
    (measured : amount.value? = some coordinate) (text : String) :
    amountText amount = .ok text ↔
      amount.toFloat?.isSome ∧ text = (printed coordinate).text := by
  rw [← coordinateText_eq, eq_comm (a := text)]
  cases amount with
  | whole n =>
      obtain rfl : (n : Rat) = coordinate := Option.some_inj.mp measured
      rw [amountText, show (Amount.whole n).toFloat? = Binary64.ofInt? n from rfl]
      cases Binary64.ofInt? n <;> simp
  | real x =>
      have value : Binary64.value? x = some coordinate := measured
      rw [amountText, value, show (Amount.real x).toFloat? = some x from rfl]
      simp

/-- A number that fits binary64 is printed as a numeral of at most two places without needless
zeros. A whole number is what its numeral denotes, and any other number is at most half a hundredth
away from that. No two numbers change places when they are printed. -/
theorem coordinates_print_faithfully {amount : Amount} {coordinate : Rat}
    (measured : amount.value? = some coordinate) (fits : amount.toFloat?.isSome) :
    ∃ numeral : Numeral, amountText amount = .ok numeral.text ∧
      (∀ n : Int, coordinate = n → numeral.value = n) ∧
      |numeral.value - coordinate| ≤ 1 / 200 ∧
      ∀ (other : Amount) (otherCoordinate : Rat) (otherNumeral : Numeral),
        other.value? = some otherCoordinate → amountText other = .ok otherNumeral.text →
          coordinate ≤ otherCoordinate → numeral.value ≤ otherNumeral.value := by
  refine ⟨printed coordinate, (amountText_eq_ok_iff measured _).mpr ⟨fits, rfl⟩, ?_,
    abs_value_printed_sub_le coordinate, ?_⟩
  · rintro n rfl
    exact value_printed_intCast n
  · intro other otherCoordinate otherNumeral otherMeasured written ordered
    obtain ⟨-, sameText⟩ := (amountText_eq_ok_iff otherMeasured _).mp written
    rw [Numeral.text_injective sameText]
    exact value_printed_mono ordered

/-- An eighth is halfway between two numbers of hundredths. -/
theorem coordinates_print_faithfully_at_eighth :
    (Amount.real 36.125).value? = some (289 / 8) ∧ (Amount.real 36.125).toFloat?.isSome ∧
      ∃ numeral : Numeral, amountText (.real 36.125) = .ok numeral.text ∧
        |numeral.value - 289 / 8| ≤ 1 / 200 ∧ numeral.value ≤ (printed 37).value := by
  have measured : (Amount.real 36.125).value? = some (289 / 8) := by decide +kernel
  have written : amountText 37 = .ok (printed 37).text := by decide +kernel
  obtain ⟨numeral, printsIt, -, close, below⟩ := coordinates_print_faithfully measured rfl
  exact ⟨measured, rfl, numeral, printsIt, close, below 37 37 _ rfl written (by norm_num)⟩

end Svg

end Jianpu
