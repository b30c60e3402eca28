import Jianpu.Proofs.Text.Spelling

/-! Text through its octets and back. Every character is read from the octets that
spell it, whatever comes after them. -/

set_option autoImplicit false

namespace Jianpu.Text.Utf8

/-! Octets of texts -/

theorem toList_loop (octets : ByteArray) (place : Nat) (before : List UInt8) :
    ByteArray.toList.loop octets place before =
      before.reverse ++ octets.data.toList.drop place := by
  fun_induction ByteArray.toList.loop octets place before with
  | case1 place before inside ih =>
      have within : place < octets.data.toList.length := inside
      rw [ih, List.drop_eq_getElem_cons within]
      simp [ByteArray.get!, inside]
  | case2 place before outside =>
      have past : octets.data.toList.length ≤ place := Nat.le_of_not_lt outside
      rw [List.drop_eq_nil_of_le past, List.append_nil]

theorem toUTF8_ofList (cs : List Char) :
    (String.ofList cs).toUTF8.toList = cs.flatMap String.utf8EncodeChar := by
  rw [String.toUTF8_eq_toByteArray, String.toByteArray_ofList, List.utf8Encode,
    ByteArray.toList, toList_loop, List.toList_data_toByteArray]
  rfl

/-! Characters -/

/-- An octet that follows a first one gives its six bits. -/
theorem follow_octet {code count low high good bits : Nat} (rest : List UInt8)
    (small : bits < 64) (within : low ≤ bits + 128 ∧ bits + 128 ≤ high) :
    follow code (count + 1) low high good (UInt8.ofNat (bits + 128) :: rest) =
      follow (code * 64 + bits) count 0x80 0xBF (good + 1) rest := by
  have octet : (UInt8.ofNat (bits + 128)).toNat = bits + 128 :=
    UInt8.toNat_ofNat_of_lt' (show bits + 128 < 256 by omega)
  have payload : (bits + 128) % 64 = bits := by
    omega
  rw [follow, octet, if_pos within, payload]

theorem toNat_octet {n : Nat} (small : n < 256) : (UInt8.ofNat n).toNat = n :=
  UInt8.toNat_ofNat_of_lt' small

theorem character?_pair {n : Nat} (rest : List UInt8) (lower : 0x80 ≤ n) (upper : n < 0x800) :
    character? (UInt8.ofNat (n / 64 % 32 + 192)) (UInt8.ofNat (n % 64 + 128) :: rest) =
      .ok (Char.ofNat n, 2, rest) := by
  have first : (UInt8.ofNat (n / 64 % 32 + 192)).toNat = n / 64 % 32 + 192 :=
    toNat_octet (by omega)
  have followed : continuation? (n / 64 % 32 + 192) = some (1, 0x80, 0xBF) := by
    rw [continuation?, if_neg (by omega), if_pos (by omega)]
  have bits : leadBits (n / 64 % 32 + 192) 1 = n / 64 := by
    simp only [leadBits]
    omega
  have whole : n / 64 * 64 + n % 64 = n := by
    omega
  rw [character?, first, if_neg (by omega), followed]
  simp only [bits]
  rw [follow_octet rest (by omega) (by omega), whole]
  rfl

theorem character?_triple {n : Nat} (rest : List UInt8) (lower : 0x800 ≤ n) (upper : n < 0x10000)
    (noHalf : n < 0xD800 ∨ 0xDFFF < n) :
    character? (UInt8.ofNat (n / 4096 % 16 + 224))
        (UInt8.ofNat (n / 64 % 64 + 128) :: UInt8.ofNat (n % 64 + 128) :: rest) =
      .ok (Char.ofNat n, 3, rest) := by
  have first : (UInt8.ofNat (n / 4096 % 16 + 224)).toNat = n / 4096 % 16 + 224 :=
    toNat_octet (by omega)
  have bits : leadBits (n / 4096 % 16 + 224) 2 = n / 4096 := by
    simp only [leadBits]
    omega
  have whole : (n / 4096 * 64 + n / 64 % 64) * 64 + n % 64 = n := by
    omega
  -- The first octet narrows the range of the second: no long forms, no halves of pairs.
  have followed : ∃ low high, continuation? (n / 4096 % 16 + 224) = some (2, low, high) ∧
      low ≤ n / 64 % 64 + 128 ∧ n / 64 % 64 + 128 ≤ high := by
    unfold continuation?
    rw [if_neg (by omega), if_neg (by omega)]
    split
    · exact ⟨_, _, rfl, by omega, by omega⟩
    split
    · exact ⟨_, _, rfl, by omega, by omega⟩
    rw [if_pos (by omega)]
    exact ⟨_, _, rfl, by omega, by omega⟩
  obtain ⟨low, high, continues, within⟩ := followed
  rw [character?, first, if_neg (by omega), continues]
  simp only [bits]
  rw [follow_octet _ (by omega) within, follow_octet rest (by omega) (by omega), whole]
  rfl

theorem character?_quadruple {n : Nat} (rest : List UInt8) (lower : 0x10000 ≤ n)
    (upper : n < 0x110000) :
    character? (UInt8.ofNat (n / 262144 % 8 + 240))
        (UInt8.ofNat (n / 4096 % 64 + 128) :: UInt8.ofNat (n / 64 % 64 + 128) ::
          UInt8.ofNat (n % 64 + 128) :: rest) =
      .ok (Char.ofNat n, 4, rest) := by
  have first : (UInt8.ofNat (n / 262144 % 8 + 240)).toNat = n / 262144 % 8 + 240 :=
    toNat_octet (by omega)
  have bits : leadBits (n / 262144 % 8 + 240) 3 = n / 262144 := by
    simp only [leadBits]
    omega
  have whole : ((n / 262144 * 64 + n / 4096 % 64) * 64 + n / 64 % 64) * 64 + n % 64 = n := by
    omega
  have followed : ∃ low high, continuation? (n / 262144 % 8 + 240) = some (3, low, high) ∧
      low ≤ n / 4096 % 64 + 128 ∧ n / 4096 % 64 + 128 ≤ high := by
    unfold continuation?
    rw [if_neg (by omega), if_neg (by omega), if_neg (by omega), if_neg (by omega),
      if_neg (by omega)]
    split
    · exact ⟨_, _, rfl, by omega, by omega⟩
    split
    · exact ⟨_, _, rfl, by omega, by omega⟩
    rw [if_pos (by omega)]
    exact ⟨_, _, rfl, by omega, by omega⟩
  obtain ⟨low, high, continues, within⟩ := followed
  rw [character?, first, if_neg (by omega), continues]
  simp only [bits]
  rw [follow_octet _ (by omega) within, follow_octet _ (by omega) (by omega),
    follow_octet rest (by omega) (by omega), whole]
  rfl

theorem character?_encoded (c : Char) (rest : List UInt8) :
    ∃ first others, String.utf8EncodeChar c = first :: others ∧
      character? first (others ++ rest) = .ok (c, (first :: others).length, rest) := by
  have valid : c.toNat < 0xD800 ∨ 0xDFFF < c.toNat ∧ c.toNat < 0x110000 := c.valid
  have same : Char.ofNat c.toNat = c := Char.ofNat_toNat c
  unfold String.utf8EncodeChar
  dsimp only
  rw [Char.toNat_val]
  split
  · refine ⟨_, _, rfl, ?_⟩
    have first : (UInt8.ofNat c.toNat).toNat = c.toNat := toNat_octet (by omega)
    rw [character?, first, if_pos (by omega), same]
    rfl
  split
  · have read := character?_pair (n := c.toNat) rest (by omega) (by omega)
    rw [same] at read
    exact ⟨_, _, rfl, read⟩
  split
  · have read := character?_triple (n := c.toNat) rest (by omega) (by omega) (by omega)
    rw [same] at read
    exact ⟨_, _, rfl, read⟩
  · have read := character?_quadruple (n := c.toNat) rest (by omega) (by omega)
    rw [same] at read
    exact ⟨_, _, rfl, read⟩

/-! Texts -/

theorem decodeFrom_encoded (cs : List Char) {fuel position : Nat}
    (enough : (cs.flatMap String.utf8EncodeChar).length ≤ fuel) :
    decodeFrom fuel position (cs.flatMap String.utf8EncodeChar) =
      .ok (cs.flatMap fun c => (CodePoint.char c).spelling) := by
  induction cs generalizing fuel position with
  | nil => cases fuel <;> rfl
  | cons c cs ih =>
      obtain ⟨first, others, spelled, read⟩ :=
        character?_encoded c (cs.flatMap String.utf8EncodeChar)
      rw [List.flatMap_cons, spelled, List.cons_append, List.length_cons,
        List.length_append] at enough
      obtain ⟨fuel, rfl⟩ := Nat.exists_eq_succ_of_ne_zero (by omega : fuel ≠ 0)
      rw [List.flatMap_cons, spelled, List.cons_append, decodeFrom, read]
      dsimp only
      rw [ih (by omega)]
      rfl

theorem isText_iff {cs : List Char} :
    IsText cs ↔ ∃ plain : List Char, cs = plain.flatMap fun c => (CodePoint.char c).spelling := by
  constructor
  · rintro ⟨points, whole, rfl⟩
    induction points with
    | nil => exact ⟨[], rfl⟩
    | cons point points ih =>
        obtain ⟨plain, same⟩ := ih fun other among => whole other (List.mem_cons_of_mem point among)
        cases point with
        | char c => exact ⟨c :: plain, by rw [List.flatMap_cons, List.flatMap_cons, same]⟩
        | half index => cases whole _ List.mem_cons_self
  · rintro ⟨plain, rfl⟩
    refine ⟨plain.map .char, ?_, (List.flatMap_map ..).symm⟩
    intro point member
    obtain ⟨c, -, rfl⟩ := List.mem_map.mp member
    rfl

theorem plain_of_codePoints {text : String} {cs : List Char}
    (points : codePoints text = cs.map .char) : plain text = String.ofList cs := by
  rw [plain, points, List.filterMap_map]
  exact congrArg String.ofList List.filterMap_some

/-- A text reads back from its octets. -/
theorem decode_encode {cs : List Char} (text : IsText cs) :
    ∃ octets, encode (String.ofList cs) = .ok octets ∧ decode octets = .ok cs := by
  obtain ⟨plain, rfl⟩ := isText_iff.mp text
  have points : codePoints (String.ofList (plain.flatMap fun c => (CodePoint.char c).spelling)) =
      plain.map .char := by
    have spelled := codePoints_ofList_flatMap (plain.map CodePoint.char)
    rwa [List.flatMap_map] at spelled
  have clear : encodingFault? (String.ofList
      (plain.flatMap fun c => (CodePoint.char c).spelling)) = none := by
    rw [encodingFault?_eq_none_iff, points]
    intro point member
    obtain ⟨c, -, rfl⟩ := List.mem_map.mp member
    rfl
  refine ⟨plain.flatMap String.utf8EncodeChar, ?_, decodeFrom_encoded plain le_rfl⟩
  rw [encode, clear]
  dsimp only
  rw [plain_of_codePoints points, toUTF8_ofList]

theorem isText_of_decodeFrom {fuel position : Nat} {octets : List UInt8} {cs : List Char}
    (read : decodeFrom fuel position octets = .ok cs) : IsText cs := by
  induction fuel generalizing position octets cs with
  | zero =>
      cases read
      exact spellsOnly_nil
  | succ fuel ih =>
      cases octets with
      | nil =>
          cases read
          exact spellsOnly_nil
      | cons first rest =>
          rw [decodeFrom] at read
          split at read
          · cases read
          · rename_i c count remaining character
            cases others : decodeFrom fuel (position + count) remaining with
            | error fault =>
                rw [others] at read
                cases read
            | ok more =>
                rw [others] at read
                cases read
                have first : IsText (CodePoint.char c).spelling := spellsOnly_spelling rfl
                exact first.append (ih others)

/-- What is read from octets is a text. -/
theorem isText_of_decode {octets : List UInt8} {cs : List Char} (read : decode octets = .ok cs) :
    IsText cs :=
  isText_of_decodeFrom read

end Jianpu.Text.Utf8
