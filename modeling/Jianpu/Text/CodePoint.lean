set_option autoImplicit false

/-!
Code points of texts. Text in units of 16 bits spells a character outside the first plane as a pair of
units, and may hold one half of a pair alone, which is no character. For such a text to be kept in a
string, the string spells it: a half is written as its stand-in, a character from a block that no script
uses, and the characters of that block, and the mark itself, are written after a mark. Reading the
spelling of code points gives them back.
-/
namespace Jianpu.Text

/-- What a text is made of: a character, or one half of a pair, counted from the first one. -/
inductive CodePoint where
  | char (c : Char)
  | half (index : Fin 0x800)
  deriving Repr, DecidableEq

namespace CodePoint

/-- The number of the first half. -/
def firstHalf : Nat := 0xD800

/-- The number of a code point. -/
def number : CodePoint → Nat
  | char c => c.toNat
  | half index => firstHalf + index

/-- The code point with the number of a half or of a character. -/
def ofNumber (n : Nat) : CodePoint :=
  if inside : firstHalf ≤ n ∧ n < firstHalf + 0x800 then half ⟨n - firstHalf, by omega⟩
  else char (Char.ofNat n)

/-- True of halves. -/
def isHalf : CodePoint → Bool
  | char _ => false
  | half _ => true

/-- True of the halves that spell an octet which is no text: those whose last eight bits are that
octet, 128 or more. -/
def isOctet : CodePoint → Bool
  | char _ => false
  | half index => 0x480 ≤ index.val && index.val ≤ 0x4FF

/-- The octet that a half spells. -/
def octet? : CodePoint → Option UInt8
  | char _ => none
  | half index =>
    if 0x480 ≤ index.val ∧ index.val ≤ 0x4FF then some (index.val - 0x400).toUInt8 else none

/-- The half that spells an octet. -/
def ofOctet (octet : UInt8) : CodePoint :=
  half ⟨0x400 + octet.toNat, by have := octet.toNat_lt; omega⟩

/-! Spelling. -/

/-- The number of the first stand-in. -/
def firstStandIn : Nat := 0xDD800

/-- The mark, after which a character means itself. -/
def mark : Char := Char.ofNat 0xDFFFF

/-- The half that a character stands for, if it is a stand-in. -/
def standsFor? (c : Char) : Option (Fin 0x800) :=
  if inside : firstStandIn ≤ c.toNat ∧ c.toNat < firstStandIn + 0x800 then
    some ⟨c.toNat - firstStandIn, by omega⟩
  else none

/-- The stand-in of a half. -/
def standIn (index : Fin 0x800) : Char :=
  Char.ofNat (firstStandIn + index.val)

/-- The spelling of a code point. -/
def spelling : CodePoint → List Char
  | char c => if c = mark || (standsFor? c).isSome then [mark, c] else [c]
  | half index => [standIn index]

/-- The code points that characters spell. A mark at the end means itself. -/
def ofSpelling : List Char → List CodePoint
  | [] => []
  | [c] => [(standsFor? c).elim (char c) half]
  | c :: d :: rest =>
    if c = mark then char d :: ofSpelling rest
    else (standsFor? c).elim (char c) half :: ofSpelling (d :: rest)

theorem toNat_standIn (index : Fin 0x800) : (standIn index).toNat = firstStandIn + index.val := by
  have inside : (firstStandIn + index.val).isValidChar := by
    have := index.isLt
    right
    simp only [firstStandIn]
    omega
  rw [standIn, Char.ofNat, dif_pos inside]
  rfl

theorem standsFor?_standIn (index : Fin 0x800) : standsFor? (standIn index) = some index := by
  have inside : firstStandIn ≤ (standIn index).toNat ∧
      (standIn index).toNat < firstStandIn + 0x800 := by
    have := index.isLt
    rw [toNat_standIn]
    omega
  rw [standsFor?, dif_pos inside]
  simp [toNat_standIn]

theorem standIn_ne_mark (index : Fin 0x800) : standIn index ≠ mark := by
  intro same
  have numbers := congrArg Char.toNat same
  have := index.isLt
  rw [toNat_standIn] at numbers
  have : mark.toNat = 0xDFFFF := by decide
  simp only [firstStandIn] at numbers
  omega

/-- Reading what is spelled gives it back, whatever is spelled after it. -/
theorem ofSpelling_spelling_append (point : CodePoint) (rest : List Char) :
    ofSpelling (point.spelling ++ rest) = point :: ofSpelling rest := by
  cases point with
  | half index =>
    cases rest with
    | nil => simp [spelling, ofSpelling, standsFor?_standIn]
    | cons d more => simp [spelling, ofSpelling, standsFor?_standIn, standIn_ne_mark]
  | char c =>
    by_cases marked : c = mark
    · simp [spelling, ofSpelling, marked]
    · cases stands : standsFor? c with
      | some index => simp [spelling, ofSpelling, stands]
      | none =>
        cases rest with
        | nil => simp [spelling, ofSpelling, marked, stands]
        | cons d more => simp [spelling, ofSpelling, marked, stands]

/-- Reading what is spelled gives it back. -/
theorem ofSpelling_flatMap_spelling (points : List CodePoint) :
    ofSpelling (points.flatMap spelling) = points := by
  induction points with
  | nil => rfl
  | cons point rest restored => rw [List.flatMap_cons, ofSpelling_spelling_append, restored]

end CodePoint

/-- The code points of a text. -/
def codePoints (text : String) : List CodePoint :=
  CodePoint.ofSpelling text.toList

/-- The text of code points. -/
def ofCodePoints (points : List CodePoint) : String :=
  String.ofList (points.flatMap CodePoint.spelling)

/-- The text of code points has these code points. -/
theorem codePoints_ofCodePoints (points : List CodePoint) :
    codePoints (ofCodePoints points) = points := by
  rw [codePoints, ofCodePoints, String.toList_ofList, CodePoint.ofSpelling_flatMap_spelling]

/-- The text of plain characters. -/
def ofPlain (plain : String) : String :=
  ofCodePoints (plain.toList.map .char)

/-- The plain characters of a text, without halves. -/
def plain (text : String) : String :=
  String.ofList ((codePoints text).filterMap fun
    | .char c => some c
    | .half _ => none)

end Jianpu.Text
