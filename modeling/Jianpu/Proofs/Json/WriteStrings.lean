import Jianpu.Proofs.Json.RoundTrip
import Jianpu.Proofs.Text.Spelling

/-! The text of a value whose strings are texts. What a string cannot hold is
escaped with characters of ASCII, so a file keeps the whole text as it is. -/

set_option autoImplicit false

namespace Jianpu.Json

open Number (Amount)
open Text (CodePoint IsFileText IsText SpellsItself isFileText_of_plain)

mutual

/-- A condition on strings, met by all strings of a value and the names in it. -/
def AllStrings (condition : String → Prop) : Json → Prop
  | .string s => condition s
  | .array items => AllStringsOfItems condition items
  | .object members => AllStringsOfMembers condition members
  | _ => True

/-- A condition on strings, met by all strings of items. -/
def AllStringsOfItems (condition : String → Prop) : List Json → Prop
  | [] => True
  | item :: rest => AllStrings condition item ∧ AllStringsOfItems condition rest

/-- A condition on strings, met by all names and strings of members. -/
def AllStringsOfMembers (condition : String → Prop) : List (String × Json) → Prop
  | [] => True
  | (name, value) :: rest =>
    condition name ∧ AllStrings condition value ∧ AllStringsOfMembers condition rest

end

theorem allStringsOfItems_iff {condition : String → Prop} {items : List Json} :
    AllStringsOfItems condition items ↔ ∀ item ∈ items, AllStrings condition item := by
  induction items with
  | nil => simp [AllStringsOfItems]
  | cons item items ih => simp [AllStringsOfItems, ih]

theorem allStringsOfMembers_iff {condition : String → Prop} {members : List (String × Json)} :
    AllStringsOfMembers condition members ↔
      ∀ member ∈ members, condition member.1 ∧ AllStrings condition member.2 := by
  induction members with
  | nil => simp [AllStringsOfMembers]
  | cons member members ih =>
      obtain ⟨name, value⟩ := member
      simp [AllStringsOfMembers, ih, and_assoc]

/-! Strings -/

theorem escapedChar_of_ge {c : Char} (high : CodePoint.firstStandIn ≤ c.toNat) :
    escapedChar c = [c] := by
  have other : ∀ d : Char, d.toNat < CodePoint.firstStandIn → c ≠ d := by
    rintro d low rfl
    omega
  have notControl : ¬ c.toNat < 0x20 := by
    simp only [CodePoint.firstStandIn] at high
    omega
  rw [escapedChar, if_neg (other _ (by decide)), if_neg (other _ (by decide)),
    if_neg (other _ (by decide)), if_neg (other _ (by decide)), if_neg (other _ (by decide)),
    if_neg (other _ (by decide)), if_neg (other _ (by decide)), if_neg notControl]

theorem hex_plain : ∀ n < 0x20, (Text.hex 4 n).all Text.isPlain = true := by
  decide

theorem isFileText_escapedChar {c : Char} (itself : SpellsItself c) :
    IsFileText (escapedChar c) := by
  unfold escapedChar
  iterate 7
    split
    · exact isFileText_of_plain (by decide)
  split
  · rename_i control
    have slash : IsFileText ['\\', 'u'] := isFileText_of_plain (by decide)
    exact slash.append (isFileText_of_plain (hex_plain c.toNat control))
  · refine Text.isFileText_of_spellsItself ?_
    intro d single
    obtain rfl := List.mem_singleton.mp single
    exact ⟨itself, by assumption⟩

theorem isFileText_escapedPoint {point : CodePoint} (whole : point.isHalf = false) :
    IsFileText (point.spelling.flatMap escapedChar) := by
  cases point with
  | half index => cases whole
  | char c =>
      rcases CodePoint.spelling_char (c := c) with ⟨itself, alone⟩ | ⟨other, marked⟩
      · rw [alone, List.flatMap_singleton]
        exact isFileText_escapedChar itself
      · have high : CodePoint.firstStandIn ≤ c.toNat :=
          Nat.not_lt.mp fun below => other (Text.spellsItself_of_lt below)
        have markHigh : CodePoint.firstStandIn ≤ CodePoint.mark.toNat := by decide
        have text : IsText (CodePoint.char c).spelling := Text.spellsOnly_spelling rfl
        have low : '\r'.toNat < CodePoint.firstStandIn := by decide
        rw [marked] at text ⊢
        rw [List.flatMap_cons, List.flatMap_singleton, escapedChar_of_ge high,
          escapedChar_of_ge markHigh]
        refine ⟨text, ?_⟩
        intro present
        rcases List.mem_cons.mp present with same | present
        · exact absurd (same ▸ low) (Nat.not_lt.mpr markHigh)
        · exact absurd (List.mem_singleton.mp present ▸ low) (Nat.not_lt.mpr high)

theorem isFileText_stringChars {s : String} (text : IsText s.toList) :
    IsFileText (stringChars s) := by
  have quote : IsFileText ['"'] := isFileText_of_plain (by decide)
  obtain ⟨points, whole, spelled⟩ := text
  have inside : IsFileText (s.toList.flatMap escapedChar) := by
    rw [spelled, List.flatMap_assoc]
    clear spelled
    induction points with
    | nil => exact isFileText_of_plain rfl
    | cons point points ih =>
        rw [List.flatMap_cons]
        exact (isFileText_escapedPoint (whole point List.mem_cons_self)).append
          (ih fun other among => whole other (List.mem_cons_of_mem point among))
  exact (quote.append inside).append quote

/-! Values -/

theorem isPlain_of_isDigit {c : Char} (digit : c.isDigit = true) : Text.isPlain c = true := by
  have bounds : c.toNat ≤ 57 := (Char.isDigit_iff_toNat.mp digit).2
  have low : c.toNat < CodePoint.firstStandIn := Nat.lt_of_le_of_lt bounds (by decide)
  have noReturn : c ≠ '\r' := ne_of_isDigit digit (by decide)
  simp [Text.isPlain, low, noReturn]

theorem isFileText_of_isDigit {digits : List Char} (allDigits : ∀ c ∈ digits, c.isDigit = true) :
    IsFileText digits :=
  isFileText_of_plain (List.all_eq_true.mpr fun c member => isPlain_of_isDigit (allDigits c member))

theorem IsRealNumeral.isFileText {numeral : List Char} (isReal : IsRealNumeral numeral) :
    IsFileText numeral := by
  have plain : ∀ c ∈ ['.', 'e', '+', '-'], IsFileText [c] := by
    intro c mark
    have table : ['.', 'e', '+', '-'].all Text.isPlain = true := by
      decide
    exact isFileText_of_plain (by simpa using List.all_eq_true.mp table c mark)
  have signPlain : ∀ {sign : Char}, sign ∈ ['+', '-'] → IsFileText [sign] :=
    fun signed => plain _ (List.mem_of_mem_drop (i := 2) signed)
  cases isReal with
  | pointed isWhole run =>
      exact (isFileText_of_isDigit isWhole.allDigits).append
        ((plain '.' (by simp)).append (isFileText_of_isDigit run.allDigits))
  | scaled isWhole signed run =>
      exact (isFileText_of_isDigit isWhole.allDigits).append
        ((plain 'e' (by simp)).append
          ((signPlain signed).append (isFileText_of_isDigit run.allDigits)))
  | pointedScaled isWhole run signed power =>
      exact (isFileText_of_isDigit isWhole.allDigits).append
        ((plain '.' (by simp)).append ((isFileText_of_isDigit run.allDigits).append
          ((plain 'e' (by simp)).append
            ((signPlain signed).append (isFileText_of_isDigit power.allDigits)))))

theorem isFileText_numberText (amount : Amount) : IsFileText (numberText amount).toList := by
  have minus : IsFileText ['-'] := isFileText_of_plain (by decide)
  have digits : ∀ n : Nat, IsFileText (Nat.repr n).toList := by
    intro n
    rw [Nat.toList_repr]
    exact isFileText_of_isDigit isDigit_toDigits
  cases amount with
  | real x =>
      rcases numberText_real x with named | ⟨numeral, isReal, plain | negative⟩
      · have names : ["NaN", "Infinity", "-Infinity"].all
            (fun name => name.toList.all Text.isPlain) = true := by
          decide
        exact isFileText_of_plain (List.all_eq_true.mp names _ named)
      · rw [plain]
        exact isReal.isFileText
      · rw [negative]
        exact minus.append isReal.isFileText
  | whole n =>
      rw [numberText, Int.toString_eq_repr]
      cases n with
      | ofNat n => exact digits n
      | negSucc n =>
          rw [Int.repr, String.toList_append]
          exact minus.append (digits (n + 1))

mutual

/-- The text of a value whose strings are texts is kept by a file as it is. -/
theorem isFileText_chars (value : Json) (texts : AllStrings (fun s => IsText s.toList) value) :
    IsFileText (chars value) := by
  match value with
  | .null => exact isFileText_of_plain (by decide)
  | .bool true => exact isFileText_of_plain (by decide)
  | .bool false => exact isFileText_of_plain (by decide)
  | .number amount => exact isFileText_numberText amount
  | .string s => exact isFileText_stringChars texts
  | .array items =>
      have opening : IsFileText ['['] := isFileText_of_plain (by decide)
      have closing : IsFileText [']'] := isFileText_of_plain (by decide)
      exact (opening.append (isFileText_itemsChars items texts)).append closing
  | .object members =>
      have opening : IsFileText ['\x7b'] := isFileText_of_plain (by decide)
      have closing : IsFileText ['\x7d'] := isFileText_of_plain (by decide)
      exact (opening.append (isFileText_membersChars members texts)).append closing

theorem isFileText_itemsChars (items : List Json)
    (texts : AllStringsOfItems (fun s => IsText s.toList) items) :
    IsFileText (itemsChars items) := by
  match items with
  | [] => exact isFileText_of_plain rfl
  | [item] => exact isFileText_chars item texts.1
  | item :: next :: items =>
      have comma : IsFileText [',', ' '] := isFileText_of_plain (by decide)
      rw [itemsChars_cons_cons]
      exact (isFileText_chars item texts.1).append
        (comma.append (isFileText_itemsChars (next :: items) texts.2))

theorem isFileText_membersChars (members : List (String × Json))
    (texts : AllStringsOfMembers (fun s => IsText s.toList) members) :
    IsFileText (membersChars members) := by
  have colon : IsFileText [':', ' '] := isFileText_of_plain (by decide)
  match members with
  | [] => exact isFileText_of_plain rfl
  | [(name, value)] =>
      rw [membersChars_singleton]
      exact (isFileText_stringChars texts.1).append
        (colon.append (isFileText_chars value texts.2.1))
  | (name, value) :: next :: members =>
      have comma : IsFileText [',', ' '] := isFileText_of_plain (by decide)
      rw [membersChars_cons_cons]
      exact ((isFileText_stringChars texts.1).append
        (colon.append (isFileText_chars value texts.2.1))).append
          (comma.append (isFileText_membersChars (next :: members) texts.2.2))

end

end Jianpu.Json
