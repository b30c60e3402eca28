import Jianpu.Proofs.Json.Numbers

/-! Binary64 numbers are read again as binary64 numbers. Their numerals have a point or an
exponent, which those of whole numbers lack, and the other three go by names. -/

set_option autoImplicit false

namespace Jianpu

/-! Finite numbers -/

namespace Number.Binary64

open Float.Model (Format)
open Float.Model.UnpackedFloat

theorem exponent_of_value?_eq_none {x : Float} (unmeasured : value? x = none) :
    x.toBits.toNat / exponentWeight % 2048 = 2047 := by
  unfold value? at unmeasured
  dsimp only at unmeasured
  split at unmeasured
  · assumption
  · cases unmeasured

/-- A number without an exact value is infinite, or no number. -/
theorem isNaN_or_isInf {x : Float} (unmeasured : value? x = none) :
    x.isNaN = true ∨ x.isInf = true := by
  have full : @unpackExponent Format.binary64 x.toModel.toBits.toBitVec = -1#11 := by
    apply BitVec.eq_of_toNat_eq
    have exponent := exponent_of_value?_eq_none unmeasured
    simp only [unpackExponent, BitVec.toNat_cast, BitVec.extractLsb_toNat]
    rw [Nat.shiftRight_eq_div_pow]
    exact exponent
  change (unpack Format.binary64 x.toModel.toBits.toBitVec).isNaN = true ∨
    (unpack Format.binary64 x.toModel.toBits.toBitVec).isInf = true
  unfold unpack
  simp only [full, ↓reduceIte]
  split
  · exact .inr rfl
  · exact .inl rfl

/-- A number with an exact value is written as a numeral, with its sign. -/
theorem textWith_of_value? (layout : Decimal.Layout) (numeral : Rat → Decimal) {x : Float}
    {exact : Rat} (measured : value? x = some exact) :
    ∃ d : Decimal, textWith layout numeral x = d.text layout ∨
      textWith layout numeral x = "-" ++ d.text layout := by
  unfold textWith
  rw [measured]
  dsimp only
  split
  · exact ⟨_, .inr rfl⟩
  · exact ⟨_, .inl String.empty_append⟩

end Number.Binary64

namespace Json

open Number (Amount Decimal)

/-! Numerals with a point or an exponent -/

/-- One digit or more. -/
structure IsRun (digits : List Char) : Prop where
  nonempty : digits ≠ []
  allDigits : ∀ c ∈ digits, c.isDigit = true

/-- The digits in front of a point, without a needless zero. -/
structure IsWholePart (digits : List Char) : Prop extends IsRun digits where
  noZeros : ∀ more, digits = '0' :: more → more = []

/-- A numeral of a binary64 number. -/
inductive IsRealNumeral : List Char → Prop where
  | pointed {whole places : List Char} : IsWholePart whole → IsRun places →
      IsRealNumeral (whole ++ '.' :: places)
  | scaled {whole power : List Char} {sign : Char} : IsWholePart whole → sign ∈ ['+', '-'] →
      IsRun power → IsRealNumeral (whole ++ 'e' :: sign :: power)
  | pointedScaled {whole places power : List Char} {sign : Char} : IsWholePart whole →
      IsRun places → sign ∈ ['+', '-'] → IsRun power →
      IsRealNumeral (whole ++ '.' :: (places ++ 'e' :: sign :: power))

/-! Reading numerals -/

/-- A text that does not go on with a digit. -/
def EndsDigits (rest : List Char) : Prop :=
  ∀ c ∈ rest.head?, c.isDigit = false

theorem EndsNumeral.endsDigits {rest : List Char} (ends : EndsNumeral rest) : EndsDigits rest :=
  fun c first => (ends c first).1

theorem endsDigits_cons {c : Char} (noDigit : c.isDigit = false) (rest : List Char) :
    EndsDigits (c :: rest) := by
  rintro _ ⟨⟩
  exact noDigit

theorem asciiDigits_run {digits rest : List Char} (run : IsRun digits) (ends : EndsDigits rest) :
    asciiDigits (digits ++ rest) = (digits, rest) := by
  obtain ⟨taken, dropped⟩ := Text.takeWhile_run run.allDigits ends
  rw [asciiDigits, taken, dropped]

theorem fraction_point {places rest : List Char} (run : IsRun places) (ends : EndsDigits rest) :
    fraction ('.' :: (places ++ rest)) = (places, rest) := by
  have some : places.isEmpty = false := by
    simpa using run.nonempty
  simp only [fraction, asciiDigits_run run ends, some, Bool.false_eq_true, ↓reduceIte]

theorem fraction_mark (rest : List Char) : fraction ('e' :: rest) = ([], 'e' :: rest) := rfl

/-- What the power after a sign stands for. -/
def powerOf (sign : Char) (power : List Char) : Int :=
  if sign = '-' then -ofAsciiDigits power else ofAsciiDigits power

theorem exponent?_mark {sign : Char} {power rest : List Char} (signed : sign ∈ ['+', '-'])
    (run : IsRun power) (ends : EndsDigits rest) :
    exponent? ('e' :: sign :: (power ++ rest)) = some (powerOf sign power, rest) := by
  have some : power.isEmpty = false := by
    simpa using run.nonempty
  simp only [List.mem_cons, List.not_mem_nil, or_false] at signed
  rcases signed with rfl | rfl <;>
    simp [exponent?, asciiDigits_run run ends, some, powerOf]

/-- The number that digits before and after a point stand for, with a power of ten. -/
def realOf (negative : Bool) (whole places : List Char) (exponent : Int) : Float :=
  let magnitude :=
    Number.Binary64.ofScientific (ofAsciiDigits (whole ++ places)) (exponent - (places.length : Int))
  if negative then -magnitude else magnitude

section Parts

variable {negative : Bool} {whole tail places after rest : List Char} {exponent : Int}
variable (isWhole : IsWholePart whole) (ends : EndsDigits tail)
  (pointed : fraction tail = (places, after))

include isWhole ends pointed

theorem unsignedNumber?_pointed (somePlace : places ≠ []) (unscaled : exponent? after = none) :
    unsignedNumber? negative (whole ++ tail) =
      some (.real (realOf negative whole places 0), after) := by
  have some : places.isEmpty = false := by
    simpa using somePlace
  rw [unsignedNumber?, asciiDigits_run isWhole.toIsRun ends]
  cases whole with
  | nil => exact absurd rfl isWhole.nonempty
  | cons c more =>
      by_cases zero : c = '0'
      · subst zero
        obtain rfl := isWhole.noZeros more rfl
        simp [pointed, unscaled, some, realOf]
      · simp [zero, pointed, unscaled, some, realOf]

theorem unsignedNumber?_scaled (scaled : exponent? after = some (exponent, rest)) :
    unsignedNumber? negative (whole ++ tail) =
      some (.real (realOf negative whole places exponent), rest) := by
  rw [unsignedNumber?, asciiDigits_run isWhole.toIsRun ends]
  cases whole with
  | nil => exact absurd rfl isWhole.nonempty
  | cons c more =>
      by_cases zero : c = '0'
      · subst zero
        obtain rfl := isWhole.noZeros more rfl
        simp [pointed, scaled, realOf]
      · simp [zero, pointed, scaled, realOf]

end Parts

/-- The numeral of a binary64 number is read as one, up to where it ends. -/
theorem IsRealNumeral.reads {numeral : List Char} (isReal : IsRealNumeral numeral)
    (negative : Bool) :
    ∃ x, ∀ rest, EndsNumeral rest →
      unsignedNumber? negative (numeral ++ rest) = some (.real x, rest) := by
  cases isReal with
  | @pointed whole places isWhole run =>
      refine ⟨realOf negative whole places 0, fun rest ends => ?_⟩
      rw [List.append_assoc, List.cons_append]
      exact unsignedNumber?_pointed isWhole (endsDigits_cons (by decide) _)
        (fraction_point run ends.endsDigits) run.nonempty (exponent?_of_ends ends)
  | @scaled whole power sign isWhole signed run =>
      refine ⟨realOf negative whole [] (powerOf sign power), fun rest ends => ?_⟩
      rw [List.append_assoc, List.cons_append, List.cons_append]
      exact unsignedNumber?_scaled isWhole (endsDigits_cons (by decide) _) (fraction_mark _)
        (exponent?_mark signed run ends.endsDigits)
  | @pointedScaled whole places power sign isWhole run signed powerRun =>
      refine ⟨realOf negative whole places (powerOf sign power), fun rest ends => ?_⟩
      rw [List.append_assoc, List.cons_append, List.append_assoc, List.cons_append,
        List.cons_append]
      exact unsignedNumber?_scaled isWhole (endsDigits_cons (by decide) _)
        (fraction_point run (endsDigits_cons (by decide) _))
        (exponent?_mark signed powerRun ends.endsDigits)

/-! Numerals that are written -/

theorem IsRun.append {front back : List Char} (first : IsRun front)
    (digits : ∀ c ∈ back, c.isDigit = true) : IsRun (front ++ back) :=
  ⟨by simp [first.nonempty], fun c member =>
    (List.mem_append.mp member).elim (first.allDigits c) (digits c)⟩

theorem isRun_toDigits (n : Nat) : IsRun (Nat.toDigits 10 n) :=
  ⟨Nat.toDigits_ne_nil, isDigit_toDigits⟩

theorem isWholePart_toDigits (n : Nat) : IsWholePart (Nat.toDigits 10 n) :=
  ⟨isRun_toDigits n, fun _ => toDigits_zero_start⟩

theorem isWholePart_singleton {c : Char} (digit : c.isDigit = true) : IsWholePart [c] :=
  ⟨⟨List.cons_ne_nil c [], by simpa using digit⟩, fun _ same => (List.cons.inj same).2.symm⟩

theorem isDigit_replicate (count : Nat) : ∀ c ∈ List.replicate count '0', c.isDigit = true := by
  intro c member
  rw [List.eq_of_mem_replicate member]
  rfl

/-- Digits in front of the point, with zeros up to it. -/
theorem IsWholePart.padded {digits : List Char} (isWhole : IsWholePart digits) {head : Nat}
    (somePlace : 0 < head) (zero : digits = ['0'] → head = 1) :
    IsWholePart (digits.take head ++ List.replicate (head - digits.length) '0') := by
  obtain ⟨⟨nonempty, allDigits⟩, noZeros⟩ := isWhole
  obtain ⟨c, more, rfl⟩ := List.exists_cons_of_ne_nil nonempty
  obtain ⟨head, rfl⟩ := Nat.exists_eq_succ_of_ne_zero (Nat.pos_iff_ne_zero.mp somePlace)
  have front : IsRun ((c :: more).take (head + 1)) :=
    ⟨by simp, fun d member => allDigits d (List.mem_of_mem_take member)⟩
  refine ⟨front.append (isDigit_replicate _), ?_⟩
  intro others same
  rw [List.take_succ_cons, List.cons_append] at same
  obtain ⟨rfl, rfl⟩ := List.cons.inj same
  obtain rfl := noZeros more rfl
  obtain rfl : head = 0 := Nat.succ.inj (zero rfl)
  rfl

theorem toDigits_eq_zero {n : Nat} (zero : Nat.toDigits 10 n = ['0']) : n = 0 := by
  have value := ofAsciiDigits_toDigits n
  rw [zero] at value
  exact value.symm

theorem isRun_power (order : Int) :
    IsRun (if (toString order.natAbs).length < 2 then "0" ++ toString order.natAbs
      else toString order.natAbs).toList := by
  have digits : IsRun (toString order.natAbs).toList := by
    rw [Nat.toString_eq_repr, Nat.toList_repr]
    exact isRun_toDigits _
  split
  · rw [String.toList_append]
    exact (isWholePart_singleton rfl).toIsRun.append digits.allDigits
  · exact digits

/-- A layout that keeps the point gives every numeral a point or an exponent. -/
theorem isRealNumeral_text (layout : Decimal.Layout) (keeps : layout.keepsPoint = true)
    (d : Decimal) : IsRealNumeral (d.text layout).toList := by
  have isWhole := isWholePart_toDigits d.coefficient
  have spelled : (toString d.coefficient).toList = Nat.toDigits 10 d.coefficient := by
    rw [Nat.toString_eq_repr, Nat.toList_repr]
  unfold Decimal.text
  dsimp only
  rw [spelled, if_pos keeps]
  generalize digitsAre : Nat.toDigits 10 d.coefficient = digits at isWhole ⊢
  have zeroOrder : digits = ['0'] →
      (if d.coefficient = 0 then 0 else d.exponent + digits.length - 1 : Int) = 0 := by
    rintro rfl
    rw [if_pos (toDigits_eq_zero digitsAre)]
  generalize (if d.coefficient = 0 then 0 else d.exponent + digits.length - 1 : Int) = order
    at zeroOrder ⊢
  split
  · split
    · rename_i below
      have places : IsRun (List.replicate (-order - 1).toNat '0' ++ digits) :=
        ⟨by simp [isWhole.nonempty], fun c member =>
          (List.mem_append.mp member).elim (isDigit_replicate _ c) (isWhole.allDigits c)⟩
      have zero : IsWholePart ['0'] := isWholePart_singleton rfl
      simpa using IsRealNumeral.pointed zero places
    · rename_i above
      have somePlace : 0 < (order + 1).toNat := by omega
      have front := isWhole.padded somePlace fun zero => by rw [zeroOrder zero]; rfl
      split
      · have zero : IsRun ['0'] := (isWholePart_singleton rfl).toIsRun
        simpa using IsRealNumeral.pointed front zero
      · rename_i some
        have places : IsRun (digits.drop (order + 1).toNat) :=
          ⟨by simpa using some, fun c member => isWhole.allDigits c (List.mem_of_mem_drop member)⟩
        simpa using IsRealNumeral.pointed front places
  · obtain ⟨c, more, rfl⟩ := List.exists_cons_of_ne_nil isWhole.nonempty
    have lead := isWholePart_singleton (isWhole.allDigits c List.mem_cons_self)
    have power := isRun_power order
    generalize (if (toString order.natAbs).length < 2 then "0" ++ toString order.natAbs
      else toString order.natAbs) = powerText at power
    obtain ⟨sign, signed, signText⟩ : ∃ sign ∈ ['+', '-'],
        (if order < 0 then "-" else "+").toList = [sign] := by
      split
      · exact ⟨'-', by simp, rfl⟩
      · exact ⟨'+', by simp, rfl⟩
    rw [String.toList_append, String.toList_append, String.toList_append, signText,
      String.toList_ofList]
    split
    · rename_i some
      have places : IsRun more :=
        ⟨by simpa using some, fun d member => isWhole.allDigits d (List.mem_cons_of_mem c member)⟩
      simpa using IsRealNumeral.pointedScaled lead places signed power
    · split
      · have zero : IsRun ['0'] := (isWholePart_singleton rfl).toIsRun
        simpa using IsRealNumeral.pointedScaled lead zero signed power
      · simpa using IsRealNumeral.scaled lead signed power

/-! Written numbers -/

/-- The text of a number is read as another one, whatever stands behind it. -/
def ReadsAs (amount other : Amount) : Prop :=
  ∀ rest, EndsNumeral rest →
    number? ((numberText amount).toList ++ rest) = some (other, rest)

theorem readsAs_whole {n : Int} (short : IsShort n) : ReadsAs (.whole n) (.whole n) :=
  fun _ ends => number?_toString short ends

theorem after?_of_ne {letter c : Char} (other : letter ≠ c) (name rest : List Char) :
    after? (letter :: name) (c :: rest) = none := by
  rw [after?, if_neg other]

theorem IsRealNumeral.starts {numeral : List Char} (isReal : IsRealNumeral numeral) :
    ∃ c more, numeral = c :: more ∧ c.isDigit = true := by
  have first : ∀ {whole : List Char}, IsWholePart whole → ∀ back, ∃ c more,
      whole ++ back = c :: more ∧ c.isDigit = true := by
    intro whole isWhole back
    obtain ⟨c, more, rfl⟩ := List.exists_cons_of_ne_nil isWhole.nonempty
    exact ⟨c, more ++ back, rfl, isWhole.allDigits c List.mem_cons_self⟩
  cases isReal with
  | pointed isWhole | scaled isWhole | pointedScaled isWhole => exact first isWhole _

theorem number?_real {numeral : List Char} (isReal : IsRealNumeral numeral) :
    ∃ x, ∀ rest, EndsNumeral rest → number? (numeral ++ rest) = some (.real x, rest) := by
  obtain ⟨x, reads⟩ := isReal.reads false
  obtain ⟨c, more, rfl, digit⟩ := isReal.starts
  refine ⟨x, fun rest ends => ?_⟩
  have other : ∀ d : Char, d.isDigit = false → d ≠ c :=
    fun d noDigit => (ne_of_isDigit digit noDigit).symm
  have read := reads rest ends
  rw [List.cons_append] at read ⊢
  rw [number?]
  · simp only [String.reduceToList, after?_of_ne (other 'I' (by decide)),
      after?_of_ne (other 'N' (by decide)), read]
  · intro _ start
    exact other '-' (by decide) (List.cons.inj start).1.symm

theorem number?_minus_real {numeral : List Char} (isReal : IsRealNumeral numeral) :
    ∃ x, ∀ rest, EndsNumeral rest →
      number? ('-' :: (numeral ++ rest)) = some (.real x, rest) := by
  obtain ⟨x, reads⟩ := isReal.reads true
  obtain ⟨c, more, rfl, digit⟩ := isReal.starts
  refine ⟨x, fun rest ends => ?_⟩
  have read := reads rest ends
  rw [List.cons_append] at read ⊢
  rw [number?]
  simp only [String.reduceToList,
    after?_of_ne (ne_of_isDigit digit (by decide : 'I'.isDigit = false)).symm, read]

theorem readsAs_name {name : String} {amount : Amount} {x : Float}
    (named : numberText amount = name)
    (read : ∀ rest, number? (name.toList ++ rest) = some (.real x, rest)) :
    ReadsAs amount (.real x) := by
  intro rest _
  rw [named, read]

/-- The ways in which a binary64 number is written: by name, or as a numeral with its sign. -/
theorem numberText_real (x : Float) :
    numberText (.real x) ∈ ["NaN", "Infinity", "-Infinity"] ∨
      ∃ numeral, IsRealNumeral numeral ∧
        ((numberText (.real x)).toList = numeral ∨ (numberText (.real x)).toList = '-' :: numeral) := by
  unfold numberText
  dsimp only
  split
  · exact .inl (by simp)
  · rename_i number
    split
    · left
      split <;> simp
    · rename_i finite
      right
      cases measured : Number.Binary64.value? x with
      | none =>
          rcases Number.Binary64.isNaN_or_isInf measured with isNaN | isInf
          · exact absurd isNaN number
          · exact absurd isInf finite
      | some exact =>
          let layout : Decimal.Layout := { leastOrder := -4, exponentFrom := 16, keepsPoint := true }
          obtain ⟨d, spelled⟩ := Number.Binary64.textWith_of_value? layout (Decimal.shortest x.abs)
            measured
          refine ⟨_, isRealNumeral_text layout rfl d, ?_⟩
          rcases spelled with spelled | spelled
          · exact .inl (congrArg String.toList spelled)
          · have signed : (Number.Binary64.text x).toList = ("-" ++ d.text layout).toList :=
              congrArg String.toList spelled
            exact .inr (signed.trans String.toList_append)

theorem exists_readsAs_real (x : Float) : ∃ y, ReadsAs (.real x) (.real y) := by
  rcases numberText_real x with named | ⟨numeral, isReal, plain | negative⟩
  · simp only [List.mem_cons, List.not_mem_nil, or_false] at named
    rcases named with named | named | named
    · exact ⟨_, readsAs_name named fun rest => rfl⟩
    · exact ⟨_, readsAs_name named fun rest => rfl⟩
    · exact ⟨_, readsAs_name named fun rest => rfl⟩
  · obtain ⟨y, reads⟩ := number?_real isReal
    exact ⟨y, fun rest ends => by rw [plain, reads rest ends]⟩
  · obtain ⟨y, reads⟩ := number?_minus_real isReal
    exact ⟨y, fun rest ends => by rw [negative, List.cons_append, reads rest ends]⟩

end Json

end Jianpu
