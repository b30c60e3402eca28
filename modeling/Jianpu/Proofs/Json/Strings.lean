import Jianpu.Json.Reader
import Jianpu.Json.Writer

/-! Strings read back as they are written, whatever follows them: every written
character is read as itself, and a string ends at its own quote. -/

set_option autoImplicit false

namespace Jianpu.Json

theorem hex_control : ∀ n < 0x20,
    Text.hex 4 n = ['0', '0', Nat.digitChar (n / 16), Nat.digitChar (n % 16)] ∧
      hexValue? (Nat.digitChar (n / 16)) = some (n / 16) ∧
      hexValue? (Nat.digitChar (n % 16)) = some (n % 16) := by
  decide

theorem codeUnit?_hex (n : Nat) (control : n < 0x20) (rest : List Char) :
    codeUnit? (Text.hex 4 n ++ rest) = some (n, rest) := by
  obtain ⟨spelled, highValue, lowValue⟩ := hex_control n control
  have zero : hexValue? '0' = some 0 := by decide
  rw [spelled]
  simp only [List.cons_append, List.nil_append, codeUnit?, zero, highValue, lowValue,
    Option.bind_eq_bind, Option.bind_some, Option.pure_def, Option.some.injEq, Prod.mk.injEq,
    and_true]
  omega

/-- A control character is written by its number and spells itself. -/
theorem unitPoint_control (c : Char) (control : c.toNat < 0x20) (rest : List Char) :
    (unitPoint c.toNat rest).1.spelling = [c] ∧ (unitPoint c.toNat rest).2 = rest := by
  have low : c.toNat < 0xD800 := by omega
  have notHalf : ¬ (Text.CodePoint.firstHalf ≤ c.toNat ∧
      c.toNat < Text.CodePoint.firstHalf + 0x800) := by
    simp only [Text.CodePoint.firstHalf]
    omega
  have notStandIn : ¬ (Text.CodePoint.firstStandIn ≤ c.toNat ∧
      c.toNat < Text.CodePoint.firstStandIn + 0x800) := by
    simp only [Text.CodePoint.firstStandIn]
    omega
  have notMark : c ≠ Text.CodePoint.mark := by
    rintro rfl
    revert control
    decide
  simp [unitPoint, low, Text.CodePoint.ofNumber, notHalf, Text.CodePoint.spelling, notMark,
    Text.CodePoint.standsFor?, notStandIn, Char.ofNat_toNat]

theorem stringBody?_shortEscape {e c : Char} (short : shortEscape? e = some c) (fuel : Nat)
    (rest : List Char) :
    stringBody? (fuel + 1) ('\\' :: e :: rest) =
      (stringBody? fuel rest).map fun (body, remainder) => (c :: body, remainder) := by
  have notUnit : e = 'u' → False := by
    rintro rfl
    revert short
    simp [shortEscape?]
  rw [stringBody?]
  · simp only [Char.reduceEq, ↓reduceIte]
    split
    · rename_i unit
      exact absurd unit (by decide)
    · rw [short]
      cases stringBody? fuel rest <;> rfl
  · exact notUnit

theorem stringBody?_hexEscape {c : Char} (control : c.toNat < 0x20) (fuel : Nat)
    (rest : List Char) :
    stringBody? (fuel + 1) ('\\' :: 'u' :: (Text.hex 4 c.toNat ++ rest)) =
      (stringBody? fuel rest).map fun (body, remainder) => (c :: body, remainder) := by
  obtain ⟨spelling, remainder⟩ := unitPoint_control c control rest
  rw [stringBody?]
  simp only [Char.reduceEq, ↓reduceIte]
  split
  · rename_i low
    exact absurd low (by decide)
  · simp only [codeUnit?_hex c.toNat control, Option.bind_eq_bind, Option.bind_some, remainder,
      spelling, Option.pure_def]
    cases stringBody? fuel rest <;> rfl

theorem stringBody?_plain {c : Char} (notQuote : c ≠ '"') (notBackslash : c ≠ '\\')
    (notControl : ¬ c.toNat < 0x20) (fuel : Nat) (rest : List Char) :
    stringBody? (fuel + 1) (c :: rest) =
      (stringBody? fuel rest).map fun (body, remainder) => (c :: body, remainder) := by
  rw [stringBody?.eq_def]
  simp only [notQuote, notBackslash, notControl, ↓reduceIte]
  cases stringBody? fuel rest <;> rfl

theorem stringBody?_escapedChar (c : Char) (fuel : Nat) (rest : List Char) :
    stringBody? (fuel + 1) (escapedChar c ++ rest) =
      (stringBody? fuel rest).map fun (body, remainder) => (c :: body, remainder) := by
  unfold escapedChar
  split
  · subst c
    exact stringBody?_shortEscape rfl fuel rest
  · split
    · subst c
      exact stringBody?_shortEscape rfl fuel rest
    · iterate 5
        split
        · subst c
          exact stringBody?_shortEscape rfl fuel rest
      split
      · rename_i control
        exact stringBody?_hexEscape control fuel rest
      · rename_i notQuote notBackslash _ _ _ _ _ notControl
        exact stringBody?_plain notQuote notBackslash notControl fuel rest

theorem escapedChar_ne_nil (c : Char) : escapedChar c ≠ [] := by
  unfold escapedChar
  repeat'
    split
    · exact List.cons_ne_nil _ _
  exact List.cons_ne_nil _ _

/-- The characters of a string are read up to the quote that closes it. -/
theorem stringBody?_escaped (cs : List Char) (fuel : Nat) (rest : List Char)
    (enough : (cs.flatMap escapedChar).length < fuel) :
    stringBody? fuel (cs.flatMap escapedChar ++ '"' :: rest) = some (cs, rest) := by
  induction cs generalizing fuel with
  | nil =>
      obtain ⟨fuel, rfl⟩ := Nat.exists_eq_succ_of_ne_zero (Nat.ne_of_gt enough)
      simp [stringBody?]
  | cons c cs ih =>
      have size := List.length_pos_iff.mpr (escapedChar_ne_nil c)
      rw [List.flatMap_cons, List.length_append] at enough
      obtain ⟨fuel, rfl⟩ := Nat.exists_eq_succ_of_ne_zero (by omega : fuel ≠ 0)
      rw [List.flatMap_cons, List.append_assoc, stringBody?_escapedChar,
        ih fuel (by omega)]
      rfl

end Jianpu.Json
