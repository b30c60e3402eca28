import Jianpu.Proofs.Json.ReadNumbers
import Jianpu.Proofs.Json.WriteStrings

/-! The strings of a value that was read. The reader takes a text apart at
characters that spell themselves, so the strings of a spelled text are spelled. -/

set_option autoImplicit false

namespace Jianpu.Json

open Number (Amount)
open Text (CodePoint IsPart IsSpelled SpellsItself)

variable {fuel : Nat} {cs rest : List Char}

theorem spellsItself_of_ascii {c : Char} (ascii : c.toNat < 0x80) : SpellsItself c :=
  Text.spellsItself_of_lt (by simp only [CodePoint.firstStandIn]; omega)

/-! What is read before the rest of a text -/

theorem isPart_dropWhile {taken : Char → Bool} (itself : ∀ c, taken c = true → SpellsItself c)
    (cs : List Char) : IsPart (cs.dropWhile taken) cs := by
  have part := IsPart.drop (cs.takeWhile taken)
    (fun c member => itself c (List.mem_takeWhile_imp member)) (cs.dropWhile taken)
  rwa [List.takeWhile_append_dropWhile] at part

theorem isPart_skipSpace (cs : List Char) : IsPart (skipSpace cs) cs := by
  refine isPart_dropWhile ?_ cs
  intro c space
  simp only [isSpace, Bool.or_eq_true, beq_iff_eq] at space
  rcases space with ((rfl | rfl) | rfl) | rfl
  all_goals exact spellsItself_of_ascii (by decide)

theorem isPart_after? {start : List Char} (ascii : start.all (·.toNat < 0x80) = true)
    (read : after? start cs = some rest) : IsPart rest cs := by
  induction start generalizing cs with
  | nil =>
      cases read
      exact IsPart.refl _
  | cons s start ih =>
      cases cs with
      | nil => cases read
      | cons c cs =>
          rw [after?] at read
          split at read
          · rename_i same
            subst same
            rw [List.all_cons, Bool.and_eq_true, decide_eq_true_eq] at ascii
            exact (ih ascii.2 read).trans (IsPart.tail (spellsItself_of_ascii ascii.1) cs)
          · cases read

theorem isPart_asciiDigits (cs : List Char) : IsPart (asciiDigits cs).2 cs := by
  refine isPart_dropWhile ?_ cs
  intro c digit
  refine spellsItself_of_ascii ?_
  simp only [Char.isDigit, Bool.and_eq_true, decide_eq_true_eq] at digit
  have : c.toNat ≤ 57 := digit.2
  omega

theorem isPart_fraction (cs : List Char) : IsPart (fraction cs).2 cs := by
  unfold fraction
  split
  · rename_i rest
    dsimp only
    split
    · exact IsPart.refl _
    · exact (isPart_asciiDigits rest).trans (IsPart.tail (spellsItself_of_ascii (by decide)) rest)
  · exact IsPart.refl _

theorem isPart_exponent? {exponent : Int} (read : exponent? cs = some (exponent, rest)) :
    IsPart rest cs := by
  unfold exponent? at read
  split at read
  · rename_i e unsigned
    split at read
    · rename_i mark
      have itself : SpellsItself e := by
        rcases mark with rfl | rfl
        all_goals exact spellsItself_of_ascii (by decide)
      refine IsPart.trans ?_ (IsPart.tail itself unsigned)
      dsimp only at read
      split at read
      all_goals
        dsimp only at read
        split at read
        · cases read
        · cases read
          first
          | exact isPart_asciiDigits _
          | exact (isPart_asciiDigits _).trans
              (IsPart.tail (spellsItself_of_ascii (by decide)) _)
    · cases read
  · cases read

theorem isPart_unsignedNumber? {negative : Bool} {amount : Amount}
    (read : unsignedNumber? negative cs = some (amount, rest)) : IsPart rest cs := by
  have zeroAlone : ∀ more, cs.takeWhile Char.isDigit = '0' :: more →
      IsPart (more ++ cs.dropWhile Char.isDigit) cs := by
    intro more digits
    have all := List.takeWhile_append_dropWhile (p := Char.isDigit) (l := cs)
    have zero : SpellsItself '0' := spellsItself_of_ascii (by decide)
    have behind := IsPart.tail zero (more ++ cs.dropWhile Char.isDigit)
    rw [digits, List.cons_append] at all
    rwa [all] at behind
  have allDigits : IsPart (cs.dropWhile Char.isDigit) cs := isPart_asciiDigits cs
  unfold unsignedNumber? at read
  dsimp only [asciiDigits] at read
  split at read
  case' h_1 more digits => have afterWhole := zeroAlone more digits
  case' h_2 => have afterWhole := allDigits
  all_goals
    refine IsPart.trans ?_ afterWhole
    dsimp only at read
    split at read
    · cases read
    split at read
    · split at read
      · split at read
        · cases read
        · cases read
          exact IsPart.refl _
      · cases read
        exact isPart_fraction _
    · rename_i found
      cases read
      exact (isPart_exponent? found).trans (isPart_fraction _)

theorem isPart_number? {amount : Amount} (read : number? cs = some (amount, rest)) :
    IsPart rest cs := by
  have infinity : "Infinity".toList.all (·.toNat < 0x80) = true := by decide
  unfold number? at read
  split at read
  · rename_i unsigned
    refine IsPart.trans ?_ (IsPart.tail (spellsItself_of_ascii (by decide)) unsigned)
    split at read
    · rename_i found
      cases read
      exact isPart_after? infinity found
    · exact isPart_unsignedNumber? read
  · split at read
    · rename_i found
      cases read
      exact isPart_after? infinity found
    · split at read
      · rename_i found
        cases read
        exact isPart_after? (by decide) found
      · exact isPart_unsignedNumber? read

/-! Strings -/

theorem spellsItself_of_hexValue? {c : Char} {n : Nat} (read : hexValue? c = some n) :
    SpellsItself c := by
  have bound : c ≤ 'f' := by
    unfold hexValue? at read
    split at read
    · rename_i digit
      exact Char.le_trans digit.2 (by decide)
    split at read
    · rename_i lower
      exact lower.2
    split at read
    · rename_i upper
      exact Char.le_trans upper.2 (by decide)
    · cases read
  have : c.toNat ≤ 102 := bound
  exact spellsItself_of_ascii (by omega)

theorem isPart_codeUnit? {unit : Nat} (read : codeUnit? cs = some (unit, rest)) :
    IsPart rest cs := by
  unfold codeUnit? at read
  split at read
  · rename_i a b c d remainder
    obtain ⟨_, first, read⟩ := Option.bind_eq_some_iff.mp read
    obtain ⟨_, second, read⟩ := Option.bind_eq_some_iff.mp read
    obtain ⟨_, third, read⟩ := Option.bind_eq_some_iff.mp read
    obtain ⟨_, fourth, made⟩ := Option.bind_eq_some_iff.mp read
    cases made
    refine IsPart.drop [a, b, c, d] ?_ rest
    simp only [List.forall_mem_cons, List.not_mem_nil, IsEmpty.forall_iff, implies_true, and_true]
    exact ⟨spellsItself_of_hexValue? first, spellsItself_of_hexValue? second,
      spellsItself_of_hexValue? third, spellsItself_of_hexValue? fourth⟩
  · cases read

theorem isPart_unitPoint (unit : Nat) (rest : List Char) : IsPart (unitPoint unit rest).2 rest := by
  unfold unitPoint
  dsimp only
  split
  · exact IsPart.refl rest
  split
  · rename_i more
    have letter := IsPart.tail (spellsItself_of_ascii (by decide : 'u'.toNat < _)) more
    have escape : IsPart more ('\\' :: 'u' :: more) :=
      letter.trans (IsPart.tail (spellsItself_of_ascii (by decide)) _)
    split
    · rename_i low remainder found
      split
      · exact (isPart_codeUnit? found).trans escape
      · exact IsPart.refl _
    · exact IsPart.refl _
  · exact IsPart.refl rest

theorem spellsItself_of_shortEscape? {e c : Char} (short : shortEscape? e = some c) :
    SpellsItself e ∧ SpellsItself c := by
  unfold shortEscape? at short
  split at short
  any_goals
    cases short
    exact ⟨spellsItself_of_ascii (by decide), spellsItself_of_ascii (by decide)⟩
  cases short

theorem isSpelled_single {c : Char} (itself : SpellsItself c) : IsSpelled [c] :=
  (Text.isText_cons itself Text.spellsOnly_nil).isSpelled

/-- What a string is read from: its end, an escape, or a character as it stands. -/
theorem stringBody?_starts {body : List Char}
    (read : stringBody? (fuel + 1) cs = some (body, rest)) :
    body = [] ∧ IsPart rest cs ∨
      ∃ written remainder others, body = written ++ others ∧
        stringBody? fuel remainder = some (others, rest) ∧
        (IsSpelled written ∧ IsPart remainder cs ∨ ∃ c, written = [c] ∧ cs = c :: remainder) := by
  cases cs with
  | nil => cases read
  | cons c cs =>
      have ascii : c.toNat < 0x80 → IsPart cs (c :: cs) := fun low =>
        IsPart.tail (spellsItself_of_ascii low) cs
      rw [stringBody?.eq_def] at read
      dsimp only at read
      split at read
      · rename_i quote
        cases read
        exact .inl ⟨rfl, ascii (by rw [quote]; decide)⟩
      split at read
      · cases read
      refine .inr ?_
      split at read
      · rename_i backslash
        have behind := ascii (by rw [backslash]; decide)
        split at read
        · rename_i more
          obtain ⟨⟨unit, remainder⟩, number, read⟩ := Option.bind_eq_some_iff.mp read
          obtain ⟨⟨others, last⟩, later, made⟩ := Option.bind_eq_some_iff.mp read
          cases made
          have letter := IsPart.tail (spellsItself_of_ascii (by decide : 'u'.toNat < _)) more
          have digits := (isPart_unitPoint unit remainder).trans (isPart_codeUnit? number)
          exact ⟨_, _, others, rfl, later, .inl ⟨Text.spellsOnly_spelling trivial,
            (digits.trans letter).trans behind⟩⟩
        · rename_i e more _
          obtain ⟨character, short, read⟩ := Option.bind_eq_some_iff.mp read
          obtain ⟨⟨others, last⟩, later, made⟩ := Option.bind_eq_some_iff.mp read
          cases made
          obtain ⟨letter, itself⟩ := spellsItself_of_shortEscape? short
          exact ⟨[character], more, others, rfl, later, .inl ⟨isSpelled_single itself,
            (IsPart.tail letter more).trans behind⟩⟩
        · cases read
      · obtain ⟨⟨others, last⟩, later, made⟩ := Option.bind_eq_some_iff.mp read
        cases made
        exact ⟨[c], cs, others, rfl, later, .inr ⟨c, rfl, rfl⟩⟩

/-- The characters of a string that is read are spelled, and so is the rest behind it. -/
theorem isSpelled_of_stringBody? {body : List Char} (spelled : IsSpelled cs)
    (read : stringBody? fuel cs = some (body, rest)) : IsSpelled body ∧ IsSpelled rest := by
  -- A mark takes the next character along, so the reader is followed two steps at a time.
  induction fuel using Nat.strongRecOn generalizing cs body rest with
  | ind fuel ih =>
      cases fuel with
      | zero => cases read
      | succ fuel =>
          rcases stringBody?_starts read with
            ⟨rfl, ended⟩ | ⟨written, remainder, others, rfl, later, ⟨text, onward⟩ | ⟨c, rfl, rfl⟩⟩
          · exact ⟨Text.spellsOnly_nil, ended.spellsOnly spelled⟩
          · have remains := onward.spellsOnly spelled
            obtain ⟨more, behind⟩ := ih fuel (Nat.lt_succ_self fuel) remains later
            exact ⟨text.append more, behind⟩
          · rcases spelled.starts with ⟨first, onward⟩ | ⟨-, d, more, rfl, other, both, onward⟩
            · obtain ⟨more, behind⟩ := ih fuel (Nat.lt_succ_self fuel) onward later
              exact ⟨first.append more, behind⟩
            · cases fuel with
              | zero => cases later
              | succ fuel =>
                  have plain : ∀ e : Char, e.toNat < 0x80 → d ≠ e := by
                    rintro e low rfl
                    exact other (spellsItself_of_ascii low)
                  rw [stringBody?_plain (plain _ (by decide)) (plain _ (by decide))
                    fun control => other (spellsItself_of_ascii (by omega))] at later
                  obtain ⟨⟨others, last⟩, later, made⟩ := Option.map_eq_some_iff.mp later
                  cases made
                  obtain ⟨more, behind⟩ := ih fuel (by omega) onward later
                  exact ⟨both.append more, behind⟩

/-! Values -/

/-- A string that spells code points. -/
def IsSpelledText (s : String) : Prop :=
  IsSpelled s.toList

/-- Whatever is read from a spelled text with some fuel, its strings are spelled, and so is the
rest behind it. -/
structure ReadsSpelled (fuel : Nat) : Prop where
  value {cs rest : List Char} {value : Json} : IsSpelled cs →
    value? fuel cs = some (value, rest) → AllStrings IsSpelledText value ∧ IsSpelled rest
  items {cs rest : List Char} {items : List Json} : IsSpelled cs →
    itemsFrom? fuel cs = some (items, rest) →
      AllStringsOfItems IsSpelledText items ∧ IsSpelled rest
  members {cs rest : List Char} {members : List (String × Json)} : IsSpelled cs →
    membersFrom? fuel cs = some (members, rest) →
      AllStringsOfMembers IsSpelledText members ∧ IsSpelled rest

theorem isSpelled_skipSpace (spelled : IsSpelled cs) : IsSpelled (skipSpace cs) :=
  (isPart_skipSpace cs).spellsOnly spelled

/-- Behind white space and a character of ASCII. -/
theorem isSpelled_behind {c : Char} (spelled : IsSpelled cs) (found : skipSpace cs = c :: rest)
    (ascii : c.toNat < 0x80) : IsSpelled rest := by
  have here := isSpelled_skipSpace spelled
  rw [found] at here
  exact (IsPart.tail (spellsItself_of_ascii ascii) rest).spellsOnly here

theorem isSpelled_after? {start : List Char} (spelled : IsSpelled cs)
    (ascii : start.all (·.toNat < 0x80) = true) (read : after? start cs = some rest) :
    IsSpelled rest :=
  (isPart_after? ascii read).spellsOnly spelled

theorem ReadsSpelled.value_succ (reads : ReadsSpelled fuel) {value : Json}
    (spelled : IsSpelled cs) (read : value? (fuel + 1) cs = some (value, rest)) :
    AllStrings IsSpelledText value ∧ IsSpelled rest := by
  cases cs with
  | nil => simp [value?] at read
  | cons c cs =>
      have ascii : c.toNat < 0x80 → IsSpelled cs := fun low =>
        (IsPart.tail (spellsItself_of_ascii low) cs).spellsOnly spelled
      simp only [value?] at read
      split at read
      · rename_i quote
        obtain ⟨⟨body, remainder⟩, inside, made⟩ := Option.bind_eq_some_iff.mp read
        cases made
        obtain ⟨text, behind⟩ := isSpelled_of_stringBody? (ascii (by rw [quote]; decide)) inside
        exact ⟨by rwa [AllStrings, IsSpelledText, String.toList_ofList], behind⟩
      split at read
      · rename_i bracket
        have inner := ascii (by rw [bracket]; decide)
        split at read
        · rename_i closed
          cases read
          exact ⟨trivial, isSpelled_behind inner closed (by decide)⟩
        · obtain ⟨⟨items, remainder⟩, inside, made⟩ := Option.bind_eq_some_iff.mp read
          cases made
          exact reads.items (isSpelled_skipSpace inner) inside
      split at read
      · rename_i brace
        have inner := ascii (by rw [brace]; decide)
        split at read
        · rename_i closed
          cases read
          exact ⟨trivial, isSpelled_behind inner closed (by decide)⟩
        · obtain ⟨⟨members, remainder⟩, inside, made⟩ := Option.bind_eq_some_iff.mp read
          cases made
          exact reads.members (isSpelled_skipSpace inner) inside
      iterate 3
        split at read
        · obtain ⟨remainder, inside, made⟩ := Option.map_eq_some_iff.mp read
          cases made
          exact ⟨trivial, isSpelled_after? spelled (by decide) inside⟩
      obtain ⟨⟨amount, remainder⟩, inside, made⟩ := Option.map_eq_some_iff.mp read
      cases made
      exact ⟨trivial, (isPart_number? inside).spellsOnly spelled⟩

theorem ReadsSpelled.items_succ (reads : ReadsSpelled fuel) {items : List Json}
    (spelled : IsSpelled cs) (read : itemsFrom? (fuel + 1) cs = some (items, rest)) :
    AllStringsOfItems IsSpelledText items ∧ IsSpelled rest := by
  simp only [itemsFrom?] at read
  obtain ⟨⟨item, afterItem⟩, first, read⟩ := Option.bind_eq_some_iff.mp read
  obtain ⟨textItem, behindItem⟩ := reads.value spelled first
  dsimp only at read
  split at read
  · rename_i closed
    cases read
    exact ⟨⟨textItem, trivial⟩, isSpelled_behind behindItem closed (by decide)⟩
  · rename_i comma
    obtain ⟨⟨others, remainder⟩, inside, made⟩ := Option.bind_eq_some_iff.mp read
    cases made
    have onward := isSpelled_skipSpace (isSpelled_behind behindItem comma (by decide))
    obtain ⟨textOthers, behind⟩ := reads.items onward inside
    exact ⟨⟨textItem, textOthers⟩, behind⟩
  · cases read

theorem ReadsSpelled.members_succ (reads : ReadsSpelled fuel) {members : List (String × Json)}
    (spelled : IsSpelled cs) (read : membersFrom? (fuel + 1) cs = some (members, rest)) :
    AllStringsOfMembers IsSpelledText members ∧ IsSpelled rest := by
  simp only [membersFrom?] at read
  split at read
  · rename_i afterQuote
    have inner := (IsPart.tail (spellsItself_of_ascii (by decide : '"'.toNat < _))
      afterQuote).spellsOnly spelled
    obtain ⟨⟨name, afterName⟩, named, read⟩ := Option.bind_eq_some_iff.mp read
    obtain ⟨textName, behindName⟩ := isSpelled_of_stringBody? inner named
    have spelledName : IsSpelledText (String.ofList name) := by
      rwa [IsSpelledText, String.toList_ofList]
    dsimp only at read
    split at read
    · rename_i colon
      obtain ⟨⟨value, afterValue⟩, first, read⟩ := Option.bind_eq_some_iff.mp read
      obtain ⟨textValue, behindValue⟩ :=
        reads.value (isSpelled_skipSpace (isSpelled_behind behindName colon (by decide))) first
      dsimp only at read
      split at read
      · rename_i closed
        cases read
        exact ⟨⟨spelledName, textValue, trivial⟩, isSpelled_behind behindValue closed (by decide)⟩
      · rename_i comma
        obtain ⟨⟨others, remainder⟩, inside, made⟩ := Option.bind_eq_some_iff.mp read
        cases made
        have onward := isSpelled_skipSpace (isSpelled_behind behindValue comma (by decide))
        obtain ⟨textOthers, behind⟩ := reads.members onward inside
        exact ⟨⟨spelledName, textValue, textOthers⟩, behind⟩
      · cases read
    · cases read
  · cases read

theorem readsSpelled (fuel : Nat) : ReadsSpelled fuel := by
  induction fuel with
  | zero =>
      constructor <;> intro cs rest value _ read <;>
        simp [value?, itemsFrom?, membersFrom?] at read
  | succ fuel ih => exact ⟨ih.value_succ, ih.items_succ, ih.members_succ⟩

/-- The strings of a value are spelled if the text is that it was read from. -/
theorem spelled_of_parse? {text : String} {value : Json} (spelled : IsSpelled text.toList)
    (read : parse? text = some value) : AllStrings IsSpelledText value := by
  obtain ⟨⟨found, rest⟩, inside, made⟩ := Option.bind_eq_some_iff.mp read
  dsimp only at made
  split at made
  · cases made
    exact ((readsSpelled _).value (isSpelled_skipSpace spelled) inside).1
  · cases made

/-! Looking into a value -/

theorem AllStrings.get? {condition : String → Prop} {value member : Json} {name : String}
    (all : AllStrings condition value) (found : value.get? name = some member) :
    AllStrings condition member := by
  cases value with
  | object members =>
      obtain ⟨entry, search, rfl⟩ := Option.map_eq_some_iff.mp found
      have entryMem : entry ∈ members := by simpa using List.mem_of_find?_eq_some search
      exact (allStringsOfMembers_iff.mp all entry entryMem).2
  | _ => cases found

theorem AllStrings.string? {condition : String → Prop} {value : Json} {s : String}
    (all : AllStrings condition value) (found : value.string? = some s) : condition s := by
  cases value with
  | string t =>
      cases found
      exact all
  | _ => cases found

end Jianpu.Json
