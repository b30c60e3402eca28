import Jianpu.Proofs.Json.RoundTrip

/-! The numbers of a value that was read. A whole one among them is short, so
writing it and reading it again gives the same number. -/

set_option autoImplicit false

namespace Jianpu.Json

open Number (Amount)

/-- A number that is short if it is whole. -/
def IsShortIfWhole (amount : Amount) : Prop :=
  ∀ n, amount = .whole n → IsShort n

/-- What the text of a number is read as. -/
def reread (amount : Amount) : Amount :=
  ((number? (numberText amount).toList).map Prod.fst).getD amount

theorem ReadsAs.reread_eq {amount other : Amount} (reads : ReadsAs amount other) :
    reread amount = other := by
  have read := reads [] endsNumeral_nil
  rw [List.append_nil] at read
  rw [reread, read]
  rfl

theorem readsAs_reread {amount : Amount} (short : IsShortIfWhole amount) :
    ReadsAs amount (reread amount) := by
  obtain ⟨other, reads⟩ : ∃ other, ReadsAs amount other := by
    cases amount with
    | whole n => exact ⟨_, readsAs_whole (short n rfl)⟩
    | real x =>
        obtain ⟨y, reads⟩ := exists_readsAs_real x
        exact ⟨_, reads⟩
  rwa [reads.reread_eq]

theorem reread_of_readable {amount : Amount} (readable : IsReadable amount) :
    reread amount = amount :=
  (readsAs_of_readable readable).reread_eq

theorem shortIfWhole_of_readable {amount : Amount} (readable : IsReadable amount) :
    IsShortIfWhole amount := by
  rintro n rfl
  exact readable

/-- Whatever is read with some fuel, its whole numbers are short. -/
structure ReadsShort (fuel : Nat) : Prop where
  value {cs rest : List Char} {value : Json} :
    value? fuel cs = some (value, rest) → AllNumbers IsShortIfWhole value
  items {cs rest : List Char} {items : List Json} :
    itemsFrom? fuel cs = some (items, rest) → AllNumbersOfItems IsShortIfWhole items
  members {cs rest : List Char} {members : List (String × Json)} :
    membersFrom? fuel cs = some (members, rest) → AllNumbersOfMembers IsShortIfWhole members

variable {fuel : Nat} {cs rest : List Char}

theorem ReadsShort.value_succ (short : ReadsShort fuel) {value : Json}
    (read : value? (fuel + 1) cs = some (value, rest)) : AllNumbers IsShortIfWhole value := by
  cases cs with
  | nil => simp [value?] at read
  | cons c cs =>
      simp only [value?] at read
      split at read
      · obtain ⟨body, -, made⟩ := Option.bind_eq_some_iff.mp read
        cases made
        trivial
      split at read
      · split at read
        · cases read
          trivial
        · obtain ⟨items, inside, made⟩ := Option.bind_eq_some_iff.mp read
          cases made
          exact short.items inside
      split at read
      · split at read
        · cases read
          trivial
        · obtain ⟨members, inside, made⟩ := Option.bind_eq_some_iff.mp read
          cases made
          exact short.members inside
      iterate 3
        split at read
        · obtain ⟨remainder, -, made⟩ := Option.map_eq_some_iff.mp read
          cases made
          trivial
      obtain ⟨⟨amount, remainder⟩, inside, made⟩ := Option.map_eq_some_iff.mp read
      cases made
      rintro n rfl
      exact isShort_of_number? inside

theorem ReadsShort.items_succ (short : ReadsShort fuel) {items : List Json}
    (read : itemsFrom? (fuel + 1) cs = some (items, rest)) :
    AllNumbersOfItems IsShortIfWhole items := by
  simp only [itemsFrom?] at read
  obtain ⟨⟨item, afterItem⟩, first, read⟩ := Option.bind_eq_some_iff.mp read
  dsimp only at read
  split at read
  · cases read
    exact ⟨short.value first, trivial⟩
  · obtain ⟨others, inside, made⟩ := Option.bind_eq_some_iff.mp read
    cases made
    exact ⟨short.value first, short.items inside⟩
  · cases read

theorem ReadsShort.members_succ (short : ReadsShort fuel) {members : List (String × Json)}
    (read : membersFrom? (fuel + 1) cs = some (members, rest)) :
    AllNumbersOfMembers IsShortIfWhole members := by
  simp only [membersFrom?] at read
  split at read
  · obtain ⟨⟨name, afterName⟩, -, read⟩ := Option.bind_eq_some_iff.mp read
    dsimp only at read
    split at read
    · obtain ⟨⟨value, afterValue⟩, first, read⟩ := Option.bind_eq_some_iff.mp read
      dsimp only at read
      split at read
      · cases read
        exact ⟨short.value first, trivial⟩
      · obtain ⟨others, inside, made⟩ := Option.bind_eq_some_iff.mp read
        cases made
        exact ⟨short.value first, short.members inside⟩
      · cases read
    · cases read
  · cases read

theorem readsShort (fuel : Nat) : ReadsShort fuel := by
  induction fuel with
  | zero =>
      constructor <;> intro cs rest value read <;>
        simp [value?, itemsFrom?, membersFrom?] at read
  | succ fuel ih => exact ⟨ih.value_succ, ih.items_succ, ih.members_succ⟩

theorem shortIfWhole_of_parse? {text : String} {value : Json} (read : parse? text = some value) :
    AllNumbers IsShortIfWhole value := by
  obtain ⟨⟨found, rest⟩, inside, made⟩ := Option.bind_eq_some_iff.mp read
  dsimp only at made
  split at made
  · cases made
    exact (readsShort _).value inside
  · cases made

/-! Looking into a value -/

theorem allNumbersOfItems_iff {condition : Amount → Prop} {items : List Json} :
    AllNumbersOfItems condition items ↔ ∀ item ∈ items, AllNumbers condition item := by
  induction items with
  | nil => simp [AllNumbersOfItems]
  | cons item items ih => simp [AllNumbersOfItems, ih]

theorem allNumbersOfMembers_iff {condition : Amount → Prop} {members : List (String × Json)} :
    AllNumbersOfMembers condition members ↔
      ∀ member ∈ members, AllNumbers condition member.2 := by
  induction members with
  | nil => simp [AllNumbersOfMembers]
  | cons member members ih =>
      obtain ⟨name, value⟩ := member
      simp [AllNumbersOfMembers, ih]

theorem AllNumbers.get? {condition : Amount → Prop} {value member : Json} {name : String}
    (all : AllNumbers condition value) (found : value.get? name = some member) :
    AllNumbers condition member := by
  cases value with
  | object members =>
      obtain ⟨entry, search, rfl⟩ := Option.map_eq_some_iff.mp found
      have entryMem : entry ∈ members := by simpa using List.mem_of_find?_eq_some search
      exact allNumbersOfMembers_iff.mp all entry entryMem
  | _ => cases found

end Jianpu.Json
