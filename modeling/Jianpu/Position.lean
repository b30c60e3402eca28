set_option autoImplicit false

/-!
Positions in a list, as whole numbers that may count from the end: -1 is the last element. A position
that names no element is refused, while a place to insert at is moved to the nearest end.
-/
namespace Jianpu

/-- True of the whole numbers that can count elements: those of 64 bits. -/
def isCountable (index : Int) : Bool :=
  -0x8000000000000000 ≤ index && index < 0x8000000000000000

/-- The element that a position names in a list of `length` elements. -/
def position? (length : Nat) (index : Int) : Option (Fin length) :=
  let shifted := if index < 0 then index + length else index
  if bounds : 0 ≤ shifted ∧ shifted < length then some ⟨shifted.toNat, by omega⟩ else none

theorem position?_natCast {length place : Nat} (inside : place < length) :
    position? length place = some ⟨place, inside⟩ := by
  have counted : ¬(place : Int) < 0 := by omega
  simp [position?, counted, inside]

theorem place_of_position? {length place : Nat} {position : Fin length}
    (found : position? length place = some position) : place = position := by
  by_cases inside : place < length
  · rw [position?_natCast inside] at found
    rw [← Option.some.inj found]
  · have counted : ¬(place : Int) < 0 := by omega
    simp [position?, counted, inside] at found

/-- The positions that name an element are those of the elements, from either end. -/
theorem position?_eq_none_iff {length : Nat} {index : Int} :
    position? length index = none ↔ ¬(-(length : Int) ≤ index ∧ index < length) := by
  by_cases fromEnd : index < 0
  · simp only [position?, fromEnd, ↓reduceIte, dite_eq_right_iff, reduceCtorEq, imp_false]
    omega
  · simp only [position?, fromEnd, ↓reduceIte, dite_eq_right_iff, reduceCtorEq, imp_false]
    omega

/-- The number of elements in front of a place to insert at in a list of `length` elements. -/
def insertionPoint (length : Nat) (index : Int) : Nat :=
  let shifted := if index < 0 then index + length else index
  min shifted.toNat length

theorem insertionPoint_natCast {length place : Nat} (inside : place ≤ length) :
    insertionPoint length place = place := by
  simp only [insertionPoint]
  omega

theorem insertionPoint_le (length : Nat) (index : Int) : insertionPoint length index ≤ length :=
  Nat.min_le_right _ _

end Jianpu
