import Jianpu.Key.Reference
import Jianpu.Proofs.Text.Numerals
import Mathlib.Tactic.IntervalCases

/-! What a reference to a key refers to. Numerals, names, roots and the words for bare numbers have
no spelling in common, so that it does not matter which of them are tried first. -/

set_option autoImplicit false

namespace Jianpu.Key

/-! What is compared -/

/-- The catalog indexes that a text refers to, once the blanks around it are gone. -/
inductive Refers (text : String) : Int → Prop where
  | name {index : Int} {key : Key} (found : at? index = some key)
      (same : Text.lower text = Text.lower key.name) : Refers text index
  | root {index : Int} {key : Key} (found : at? index = some key) (major : key.numbersOnly = false)
      (same : Text.lower text = Text.lower key.root) : Refers text index
  | bareNumbers (word : Text.lower text ∈ ["numbers", "numbers only", "numbers-only"]) :
      Refers text 12
  | numeral {index : Int} {key : Key} (isNumeral : Text.IsNumeral text.toList index)
      (found : at? index = some key) : Refers text index

/-- An error of a text that is no numeral and names no key. -/
def ReferenceError.IsUnreadable : ReferenceError → Prop
  | .outOfCatalog _ => False
  | .notANumeral _ _ | .unknown _ => True

/-! Words -/

/-- The catalog index of a word in small letters. -/
def wordIndex? (word : String) : Option Nat :=
  if numbersWords.contains word then some numbersOnlyIndex
  else
    (catalog.findIdx? fun key => Text.lower key.name == word).or
      ((catalog.take numbersOnlyIndex).findIdx? fun key => Text.lower key.root == word)

theorem wordIndex?_name : ∀ place : Fin 13,
    wordIndex? (Text.lower catalog[place].name) = some place.val := by
  decide +kernel

theorem wordIndex?_root : ∀ place : Fin 13, catalog[place].numbersOnly = false →
    wordIndex? (Text.lower catalog[place].root) = some place.val := by
  decide +kernel

theorem wordIndex?_numbersWords : ∀ word ∈ numbersWords, wordIndex? word = some 12 := by
  decide +kernel

theorem exists_place {index : Int} {key : Key} (found : at? index = some key) :
    ∃ place : Fin 13, index = place.val ∧ key = catalog[place] := by
  rw [at?] at found
  split at found
  · rename_i nonnegative
    obtain ⟨inside, same⟩ := List.getElem?_eq_some_iff.mp found
    exact ⟨⟨index.toNat, inside⟩, (Int.toNat_of_nonneg nonnegative).symm, same.symm⟩
  · cases found

theorem at?_place (place : Fin 13) : at? place.val = some catalog[place] := by
  have inside : place.val < catalog.length := place.isLt
  rw [at?, if_pos (Int.natCast_nonneg _), Int.toNat_natCast, List.getElem?_eq_getElem inside]
  rfl

theorem at?_eq_none_iff {index : Int} : at? index = none ↔ ¬ (0 ≤ index ∧ index < 13) := by
  have count : catalog.length = 13 := rfl
  rw [at?]
  split
  · rw [List.getElem?_eq_none_iff, count]
    omega
  · simp only [true_iff]
    omega

theorem major_of_lt {place : Fin 13} (before : place.val < 12) :
    catalog[place].numbersOnly = false := by
  revert place
  decide

/-- A word is one of those for bare numbers, or a name or the root of a major key. -/
theorem wordIndex?_cases {word : String} {index : Nat} (found : wordIndex? word = some index) :
    (word ∈ numbersWords ∧ index = 12) ∨
      ∃ place : Fin 13, index = place.val ∧
        (word = Text.lower catalog[place].name ∨
          catalog[place].numbersOnly = false ∧ word = Text.lower catalog[place].root) := by
  unfold wordIndex? at found
  split at found
  · rename_i listed
    exact .inl ⟨List.contains_iff_mem.mp listed, (Option.some.inj found).symm⟩
  · rcases Option.or_eq_some_iff.mp found with named | ⟨-, rooted⟩
    · obtain ⟨inside, same, -⟩ := List.findIdx?_eq_some_iff_getElem.mp named
      exact .inr ⟨⟨index, inside⟩, rfl, .inl (beq_iff_eq.mp same).symm⟩
    · obtain ⟨inside, same, -⟩ := List.findIdx?_eq_some_iff_getElem.mp rooted
      have before : index < 12 := inside
      rw [List.getElem_take] at same
      exact .inr ⟨⟨index, by omega⟩, rfl, .inr ⟨major_of_lt before, (beq_iff_eq.mp same).symm⟩⟩

theorem refers_of_wordIndex? {text : String} {index : Nat}
    (found : wordIndex? (Text.lower text) = some index) : Refers text index := by
  rcases wordIndex?_cases found with ⟨listed, rfl⟩ | ⟨place, rfl, named | ⟨major, rooted⟩⟩
  · exact .bareNumbers listed
  · exact .name (at?_place place) named
  · exact .root (at?_place place) major rooted

theorem looksNumeric_of_wordIndex? {word : String} {index : Nat}
    (found : wordIndex? word = some index) : looksNumeric word.toList = false := by
  have words : ∀ word ∈ numbersWords, looksNumeric word.toList = false := by
    decide +kernel
  have names : ∀ place : Fin 13,
      looksNumeric (Text.lower catalog[place].name).toList = false ∧
        looksNumeric (Text.lower catalog[place].root).toList = false := by
    decide +kernel
  rcases wordIndex?_cases found with ⟨listed, -⟩ | ⟨place, -, rfl | ⟨-, rfl⟩⟩
  · exact words word listed
  · exact (names place).1
  · exact (names place).2

/-! Texts that are meant as numbers -/

theorem hyphen_or_digit {cs : List Char} (numeric : looksNumeric cs = true) :
    ∀ c ∈ cs, c = '-' ∨ Text.isDigit c = true := by
  rw [looksNumeric, Bool.and_eq_true, List.all_eq_true] at numeric
  intro c member
  rw [← List.takeWhile_append_dropWhile (p := (· == '-')) (l := cs), List.mem_append] at member
  rcases member with hyphen | later
  · have same := List.mem_takeWhile_imp hyphen
    exact .inl (beq_iff_eq.mp same)
  · exact .inr (numeric.2 c later)

theorem looksNumeric_of_isNumeral {cs : List Char} {n : Int} (isNumeral : Text.IsNumeral cs n) :
    looksNumeric cs = true := by
  have digits : ∀ {digits : List Char} {magnitude : Nat}, Text.Spells digits magnitude →
      looksNumeric digits = true ∧ looksNumeric ('-' :: digits) = true := by
    intro digits magnitude spells
    have valued := Text.isSome_of_spells spells
    have bare : digits.dropWhile (· == '-') = digits := by
      cases digits with
      | nil => rfl
      | cons c digits =>
          refine List.dropWhile_cons_of_neg ?_
          intro hyphen
          rw [beq_iff_eq.mp hyphen] at spells
          exact Text.not_spells_hyphen spells
    have all : digits.all Text.isDigit = true := by
      rw [List.all_eq_true]
      intro c member
      rw [Text.isDigit, valued c member, Bool.true_or]
    have some : digits.isEmpty = false := by
      simpa using Text.ne_nil_of_spells spells
    have passed : ('-' :: digits).dropWhile (· == '-') = digits := by
      rw [List.dropWhile_cons_of_pos (by decide), bare]
    constructor
    · rw [looksNumeric, bare, some, all]
      rfl
    · rw [looksNumeric, passed, some, all]
      rfl
  cases isNumeral with
  | plain spells => exact (digits spells).1
  | negated spells => exact (digits spells).2

theorem not_isUpper_of_isDigit {c : Char} (digit : Text.isDigit c = true) : ¬ c.isUpper = true := by
  intro upper
  obtain ⟨above, below⟩ := of_decide_eq_true upper
  have lower : 65 ≤ c.toNat := above
  have higher : c.toNat ≤ 90 := below
  rw [← Char.ofNat_toNat c] at digit
  revert digit
  generalize c.toNat = n at lower higher
  interval_cases n <;> decide

theorem lower_of_looksNumeric {text : String} (numeric : looksNumeric text.toList = true) :
    Text.lower text = text := by
  have small : text.toList.map Char.toLower = text.toList.map id := by
    refine List.map_congr_left ?_
    intro c member
    rcases hyphen_or_digit numeric c member with rfl | digit
    · rfl
    · have small : ¬ (c.val ≥ 'A'.val ∧ c.val ≤ 'Z'.val) :=
        fun capital => not_isUpper_of_isDigit digit (decide_eq_true capital)
      exact dif_neg small
  rw [Text.lower, small, List.map_id, String.ofList_toList]

/-- What is meant as a number is no word for a key. -/
theorem wordIndex?_of_looksNumeric {text : String} (numeric : looksNumeric text.toList = true) :
    wordIndex? (Text.lower text) = none := by
  rw [lower_of_looksNumeric numeric]
  cases found : wordIndex? text with
  | none => rfl
  | some index =>
      rw [looksNumeric_of_wordIndex? found] at numeric
      cases numeric

/-! Finding -/

variable {reference : String}

section Numeric

variable (numeric : looksNumeric (Text.trim reference).toList = true)

include numeric

theorem find_of_readInt_error {fault : Text.NumeralFault}
    (unread : Text.readInt (Text.trim reference).toList = .error fault) :
    find reference = .error (.notANumeral (Text.trim reference) fault) := by
  simp only [find, numeric, ↓reduceIte, unread]

theorem find_of_at? {index : Int} {key : Key}
    (read : Text.readInt (Text.trim reference).toList = .ok index)
    (found : at? index = some key) : find reference = .ok index := by
  simp only [find, numeric, ↓reduceIte, read, resolve, found]

theorem find_of_at?_none {index : Int}
    (read : Text.readInt (Text.trim reference).toList = .ok index)
    (absent : at? index = none) : find reference = .error (.outOfCatalog ⟨index⟩) := by
  simp only [find, numeric, ↓reduceIte, read, resolve, absent]

/-- A text that is meant as a number is read as the numeral that it is, if it is one. -/
theorem readInt_trim_eq_ok_iff {n : Int} :
    Text.readInt (Text.trim reference).toList = .ok n ↔
      Text.IsNumeral (Text.trim reference).toList n := by
  have trimmed : Text.IsTrimmed (Text.trim reference).toList := by
    rw [Text.trim, String.toList_ofList]
    exact Text.isTrimmed_trimmed _
  have absent : ∀ c : Char, c ≠ '-' → Text.isDigit c = false →
      c ∉ (Text.trim reference).toList := by
    intro c noHyphen noDigit member
    rcases hyphen_or_digit numeric c member with hyphen | digit
    · exact noHyphen hyphen
    · rw [noDigit] at digit
      cases digit
  exact Text.readInt_eq_ok_iff trimmed (absent '_' (by decide) (by decide))
    (absent '+' (by decide) (by decide))

end Numeric

theorem find_of_not_looksNumeric (wordy : looksNumeric (Text.trim reference).toList = false) :
    find reference =
      match wordIndex? (Text.lower (Text.trim reference)) with
      | some place => .ok place
      | none => .error (.unknown reference) := by
  simp only [find, wordIndex?, wordy, Bool.false_eq_true, ↓reduceIte]
  generalize numbersWords.contains (Text.lower (Text.trim reference)) = listed
  generalize Option.or _ _ = place
  cases listed with
  | true => rfl
  | false => cases place <;> rfl

theorem find_of_wordIndex? {place : Nat}
    (found : wordIndex? (Text.lower (Text.trim reference)) = some place) :
    find reference = .ok place := by
  have wordy : looksNumeric (Text.trim reference).toList = false := by
    cases numeric : looksNumeric (Text.trim reference).toList with
    | false => rfl
    | true =>
        rw [wordIndex?_of_looksNumeric numeric] at found
        cases found
  rw [find_of_not_looksNumeric wordy, found]

/-! Results -/

/-- The ways in which a reference is looked up. -/
theorem find_cases (reference : String) :
    (∃ index, Refers (Text.trim reference) index ∧ find reference = .ok index) ∨
      (∃ index, Text.IsNumeral (Text.trim reference).toList index ∧ at? index = none ∧
        find reference = .error (.outOfCatalog ⟨index⟩)) ∨
      ∃ error, error.IsUnreadable ∧ find reference = .error error := by
  cases numeric : looksNumeric (Text.trim reference).toList with
  | true =>
      cases read : Text.readInt (Text.trim reference).toList with
      | error fault =>
          exact .inr (.inr ⟨.notANumeral _ fault, trivial, find_of_readInt_error numeric read⟩)
      | ok index =>
          have isNumeral := (readInt_trim_eq_ok_iff numeric).mp read
          cases found : at? index with
          | none => exact .inr (.inl ⟨index, isNumeral, found, find_of_at?_none numeric read found⟩)
          | some key => exact .inl ⟨index, .numeral isNumeral found, find_of_at? numeric read found⟩
  | false =>
      cases found : wordIndex? (Text.lower (Text.trim reference)) with
      | none =>
          refine .inr (.inr ⟨.unknown reference, trivial, ?_⟩)
          rw [find_of_not_looksNumeric numeric, found]
      | some place => exact .inl ⟨place, refers_of_wordIndex? found, find_of_wordIndex? found⟩

theorem find_of_refers {index : Int} (refers : Refers (Text.trim reference) index) :
    find reference = .ok index := by
  cases refers with
  | name found same =>
      obtain ⟨place, rfl, rfl⟩ := exists_place found
      apply find_of_wordIndex?
      rw [same, wordIndex?_name]
  | root found major same =>
      obtain ⟨place, rfl, rfl⟩ := exists_place found
      apply find_of_wordIndex?
      rw [same, wordIndex?_root place major]
  | bareNumbers word => exact find_of_wordIndex? (wordIndex?_numbersWords _ word)
  | numeral isNumeral found =>
      have numeric := looksNumeric_of_isNumeral isNumeral
      exact find_of_at? numeric ((readInt_trim_eq_ok_iff numeric).mpr isNumeral) found

theorem find_of_beyond {index : Int} (isNumeral : Text.IsNumeral (Text.trim reference).toList index)
    (absent : at? index = none) : find reference = .error (.outOfCatalog ⟨index⟩) := by
  have numeric := looksNumeric_of_isNumeral isNumeral
  exact find_of_at?_none numeric ((readInt_trim_eq_ok_iff numeric).mpr isNumeral) absent

theorem Refers.exists_at? {text : String} {index : Int} (refers : Refers text index) :
    ∃ key, at? index = some key := by
  cases refers with
  | name found | root found | numeral _ found => exact ⟨_, found⟩
  | bareNumbers => exact ⟨_, rfl⟩

theorem find_eq_ok_iff {index : Int} :
    find reference = .ok index ↔ Refers (Text.trim reference) index := by
  refine ⟨fun found => ?_, find_of_refers⟩
  rcases find_cases reference with ⟨place, refers, same⟩ | ⟨_, _, _, same⟩ | ⟨_, _, same⟩
  · rw [found] at same
    exact Except.ok.inj same ▸ refers
  all_goals
    rw [found] at same
    cases same

/-- A reference to a key names one of the catalog. -/
theorem exists_at?_of_find {index : Int} (named : find reference = .ok index) :
    ∃ key, at? index = some key :=
  (find_eq_ok_iff.mp named).exists_at?

theorem find_eq_outOfCatalog_iff {index : Int} :
    find reference = .error (.outOfCatalog ⟨index⟩) ↔
      Text.IsNumeral (Text.trim reference).toList index ∧ at? index = none := by
  refine ⟨fun found => ?_, fun numeral => find_of_beyond numeral.1 numeral.2⟩
  rcases find_cases reference with ⟨_, _, same⟩ | ⟨_, isNumeral, absent, same⟩ | ⟨_, kind, same⟩
  · rw [found] at same
    cases same
  · rw [found] at same
    cases same
    exact ⟨isNumeral, absent⟩
  · rw [found] at same
    cases same
    exact False.elim kind

theorem find_unreadable_iff :
    (∃ error, error.IsUnreadable ∧ find reference = .error error) ↔
      ∀ index, ¬ Refers (Text.trim reference) index ∧
        ¬ Text.IsNumeral (Text.trim reference).toList index := by
  constructor
  · intro unreadable index
    obtain ⟨error, kind, failed⟩ := unreadable
    have notReferring : ∀ place, ¬ Refers (Text.trim reference) place := by
      intro place refers
      rw [find_of_refers refers] at failed
      cases failed
    refine ⟨notReferring index, fun isNumeral => ?_⟩
    cases found : at? index with
    | some key => exact notReferring index (.numeral isNumeral found)
    | none =>
        rw [find_of_beyond isNumeral found] at failed
        cases failed
        exact kind
  · intro nothing
    rcases find_cases reference with ⟨index, refers, _⟩ | ⟨index, isNumeral, _⟩ | unreadable
    · exact absurd refers (nothing index).1
    · exact absurd isNumeral (nothing index).2
    · exact unreadable

/-- A reference is looked up exactly: it finds the catalog index that it refers to without the
blanks around it, a numeral of any other number is refused for what it says, and all other texts
are refused as unreadable. So no text finds an index outside the catalog, and none refers to two
keys. -/
theorem references_resolve_exactly (reference : String) :
    let text := Text.trim reference
    (∀ index, find reference = .ok index ↔ Refers text index) ∧
      (∀ index, find reference = .error (.outOfCatalog ⟨index⟩) ↔
        Text.IsNumeral text.toList index ∧ ¬ (0 ≤ index ∧ index < 13)) ∧
      ((∃ error, error.IsUnreadable ∧ find reference = .error error) ↔
        ∀ index, ¬ Refers text index ∧ ¬ Text.IsNumeral text.toList index) ∧
      ∀ index, Refers text index → 0 ≤ index ∧ index < 13 ∧
        ∀ other, Refers text other → other = index := by
  intro text
  refine ⟨fun index => find_eq_ok_iff, fun index => ?_, find_unreadable_iff, ?_⟩
  · rw [find_eq_outOfCatalog_iff, at?_eq_none_iff]
  · intro index refers
    obtain ⟨key, found⟩ := refers.exists_at?
    have inside : 0 ≤ index ∧ index < 13 := by
      by_contra outside
      rw [at?_eq_none_iff.mpr outside] at found
      cases found
    refine ⟨inside.1, inside.2, fun other alsoRefers => ?_⟩
    have same := (find_of_refers alsoRefers).symm.trans (find_of_refers refers)
    exact Except.ok.inj same

/-- Twelve in Arabic digits, behind an ideographic space. -/
theorem references_resolve_exactly_in_arabic_digits :
    let reference := "\u3000\u0661\u0662"
    Refers (Text.trim reference) 12 ∧ find reference = .ok 12 ∧
      ∀ other, Refers (Text.trim reference) other → other = 12 := by
  intro reference
  have digits : (Text.trim reference).toList = ['\u0661', '\u0662'] := by
    decide +kernel
  have spells : Text.Spells ['\u0661', '\u0662'] 12 :=
    ⟨[1, 2], .cons (by decide) (.cons (by decide) .nil), by decide, by decide, by decide⟩
  have isNumeral : Text.IsNumeral (Text.trim reference).toList 12 :=
    digits ▸ .plain spells
  have refers : Refers (Text.trim reference) 12 := .numeral isNumeral rfl
  obtain ⟨found, -, -, inside⟩ := references_resolve_exactly reference
  exact ⟨refers, (found 12).mpr refers, (inside 12 refers).2.2⟩

end Jianpu.Key
