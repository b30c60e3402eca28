import Jianpu.Document
import Mathlib.Data.List.InsertIdx
import Mathlib.Data.List.Perm.Basic

/-! Moving blocks. A move takes one block to another place and leaves the others
in their order, so that moving it back undoes it and moving it on is one move. -/

set_option autoImplicit false

namespace Jianpu

/-! Elements that are moved -/

section IsMoved

variable {α : Type}

/-- The element at `place` stands at `target` afterwards, and without it the list
is what it was without it before. -/
structure IsMoved (before after : List α) (place target : Nat) : Prop where
  standing : place < before.length
  arrived : after[target]? = before[place]?
  others : after.eraseIdx target = before.eraseIdx place

theorem isMoved_insertIdx {before : List α} {place target : Nat} (standing : place < before.length)
    (below : target ≤ (before.eraseIdx place).length) :
    IsMoved before ((before.eraseIdx place).insertIdx target before[place]) place target := by
  refine ⟨standing, ?_, List.eraseIdx_insertIdx_self _⟩
  rw [List.getElem?_insertIdx_self, if_pos below, List.getElem?_eq_getElem standing]

variable {before between after : List α} {place stop target : Nat}

theorem IsMoved.below (moved : IsMoved before after place target) : target < after.length := by
  obtain ⟨standing, arrived, -⟩ := moved
  rw [List.getElem?_eq_getElem standing] at arrived
  exact (List.getElem?_eq_some_iff.mp arrived).1

/-- A move is undone by the opposite one. -/
theorem IsMoved.symm (moved : IsMoved before after place target) :
    IsMoved after before target place :=
  ⟨moved.below, moved.arrived.symm, moved.others.symm⟩

/-- Two moves of one element are one move. -/
theorem IsMoved.trans (first : IsMoved before between place stop)
    (second : IsMoved between after stop target) : IsMoved before after place target :=
  ⟨first.standing, second.arrived.trans first.arrived, second.others.trans first.others⟩

theorem IsMoved.getElem_eq (moved : IsMoved before after place target)
    (below : target < after.length) (standing : place < before.length) :
    after[target] = before[place] := by
  have arrived := moved.arrived
  rw [List.getElem?_eq_getElem below, List.getElem?_eq_getElem standing] at arrived
  exact Option.some.inj arrived

theorem IsMoved.eq_insertIdx (moved : IsMoved before after place target)
    (standing : place < before.length) :
    after = (before.eraseIdx place).insertIdx target before[place] := by
  have below := moved.below
  rw [← moved.others, ← moved.getElem_eq below standing, List.insertIdx_eraseIdx_getElem below]

theorem IsMoved.perm (moved : IsMoved before after place target) : after.Perm before := by
  have around := List.getElem_cons_eraseIdx_perm moved.below
  rw [moved.getElem_eq moved.below moved.standing, moved.others] at around
  exact around.symm.trans (List.getElem_cons_eraseIdx_perm moved.standing)

theorem IsMoved.length_eq (moved : IsMoved before after place target) :
    after.length = before.length :=
  moved.perm.length_eq

end IsMoved

namespace Document

variable {document moved : Document}

theorem block?_eq_none_iff {index : Int} :
    document.block? index = none ↔ position? document.blocks.length index = none :=
  Option.map_eq_none_iff

/-- A move is refused where no block stands at the position, and where the place
to move it to is no number that can count blocks. -/
theorem moveBlock_eq_error_iff {index target : Int} {refusal : EditError} :
    document.moveBlock index target = .error refusal ↔
      document.block? index = none ∧
          refusal = (if isCountable index then .noSuchBlock else .uncountable) ∨
        (∃ block, document.block? index = some block) ∧ isCountable target = false ∧
          refusal = .uncountable := by
  rw [block?_eq_none_iff, moveBlock, block?]
  cases position? document.blocks.length index with
  | none => simp [eq_comm (b := refusal)]
  | some place => cases isCountable target <;> simp [eq_comm (b := refusal)]

theorem exists_moveBlock_eq_error_iff {index target : Int} :
    (∃ refusal, document.moveBlock index target = .error refusal) ↔
      ¬(-(document.blocks.length : Int) ≤ index ∧ index < document.blocks.length) ∨
        isCountable target = false := by
  rw [← position?_eq_none_iff, ← block?_eq_none_iff]
  simp only [moveBlock_eq_error_iff]
  cases document.block? index <;> simp

theorem isMoved_of_moveBlock {index target : Int}
    (taken : document.moveBlock index target = .ok moved) :
    moved = { document with blocks := moved.blocks } ∧
      ∃ place, position? document.blocks.length index = some place ∧
        IsMoved document.blocks moved.blocks place
          (insertionPoint (document.blocks.length - 1) target) := by
  unfold moveBlock at taken
  split at taken
  · cases taken
  · rename_i place found
    dsimp only at taken
    split at taken
    · obtain rfl := Except.ok.inj taken
      have others := List.length_eraseIdx_of_lt place.isLt
      rw [others]
      refine ⟨rfl, place, found, isMoved_insertIdx place.isLt ?_⟩
      rw [others]
      exact insertionPoint_le _ _
    · cases taken

/-- Moves between places of blocks, told by what they leave. -/
theorem moveBlock_eq_ok_iff {place target : Nat} (standing : place < document.blocks.length)
    (below : target < document.blocks.length) (countable : isCountable target = true) :
    document.moveBlock place target = .ok moved ↔
      moved = { document with blocks := moved.blocks } ∧
        IsMoved document.blocks moved.blocks place target := by
  have found := position?_natCast standing
  have point : insertionPoint (document.blocks.length - 1) target = target :=
    insertionPoint_natCast (by omega)
  constructor
  · intro taken
    obtain ⟨rest, position, known, isMoved⟩ := isMoved_of_moveBlock taken
    rw [point] at isMoved
    obtain rfl := Option.some.inj (known.symm.trans found)
    exact ⟨rest, isMoved⟩
  · rintro ⟨rest, isMoved⟩
    have others := List.length_eraseIdx_of_lt standing
    rw [rest, isMoved.eq_insertIdx standing]
    simp only [moveBlock, found, countable, others, point]
    rfl

theorem exists_moveBlock {place target : Nat} (standing : place < document.blocks.length)
    (countable : isCountable target = true) :
    ∃ moved, document.moveBlock place target = .ok moved := by
  have found := position?_natCast standing
  simp only [moveBlock, found, countable]
  exact ⟨_, rfl⟩

/-- Moving a block reorders the blocks and does nothing else. -/
theorem move_reorders_blocks (document : Document) :
    (∀ index target : Int,
      ((∃ refusal, document.moveBlock index target = .error refusal) ↔
        ¬(-(document.blocks.length : Int) ≤ index ∧ index < document.blocks.length) ∨
          isCountable target = false) ∧
      ∀ moved, document.moveBlock index target = .ok moved →
        moved = { document with blocks := moved.blocks } ∧ moved.blocks.Perm document.blocks) ∧
    ∀ place target : Nat, place < document.blocks.length → target < document.blocks.length →
      isCountable place = true → isCountable target = true →
      ∃ moved, document.moveBlock place target = .ok moved ∧
        moved = { document with blocks := moved.blocks } ∧
        IsMoved document.blocks moved.blocks place target ∧
        moved.moveBlock target place = .ok document ∧
        ∀ last : Nat, last < document.blocks.length → isCountable last = true →
          moved.moveBlock target last = document.moveBlock place last := by
  constructor
  · intro index target
    refine ⟨exists_moveBlock_eq_error_iff, ?_⟩
    intro moved taken
    obtain ⟨rest, place, -, isMoved⟩ := isMoved_of_moveBlock taken
    exact ⟨rest, isMoved.perm⟩
  · intro place target standing below placeCountable targetCountable
    obtain ⟨moved, taken⟩ := exists_moveBlock standing targetCountable
    obtain ⟨rest, isMoved⟩ := (moveBlock_eq_ok_iff standing below targetCountable).mp taken
    have length := isMoved.length_eq
    refine ⟨moved, taken, rest, isMoved, ?_, ?_⟩
    · rw [moveBlock_eq_ok_iff isMoved.below (length ▸ standing) placeCountable]
      exact ⟨by rw [rest], isMoved.symm⟩
    · intro last lastBelow lastCountable
      obtain ⟨final, further⟩ := exists_moveBlock standing lastCountable
      obtain ⟨finalRest, final'⟩ := (moveBlock_eq_ok_iff standing lastBelow lastCountable).mp further
      rw [further, moveBlock_eq_ok_iff isMoved.below (length ▸ lastBelow) lastCountable]
      refine ⟨?_, isMoved.symm.trans final'⟩
      rw [finalRest, rest]

/-- The first of three blocks is moved to the end and from there to the middle. -/
theorem move_reorders_three_blocks :
    ∃ moved : Document, Document.moveBlock
        { blocks := [⟨.melody, "1"⟩, ⟨.chords, "C"⟩, ⟨.melody, "5"⟩] } 0 2 = .ok moved ∧
      moved.blocks = [⟨.chords, "C"⟩, ⟨.melody, "5"⟩, ⟨.melody, "1"⟩] ∧
      moved.moveBlock 2 1 =
        .ok { blocks := [⟨.chords, "C"⟩, ⟨.melody, "1"⟩, ⟨.melody, "5"⟩] } := by
  obtain ⟨-, moves⟩ := move_reorders_blocks
    { blocks := [⟨.melody, "1"⟩, ⟨.chords, "C"⟩, ⟨.melody, "5"⟩] }
  obtain ⟨moved, taken, -, isMoved, -, further⟩ :=
    moves 0 2 (by decide) (by decide) (by decide) (by decide)
  refine ⟨moved, taken, ?_, ?_⟩
  · rw [isMoved.eq_insertIdx (by decide)]
    rfl
  · exact further 1 (by decide) (by decide)

/-- A place beyond 64 bits is refused, although the block is there. -/
theorem move_beyond_count_is_refused :
    ∃ document : Document, ∃ index target : Int,
      (-(document.blocks.length : Int) ≤ index ∧ index < document.blocks.length) ∧
      document.moveBlock index target = .error .uncountable :=
  ⟨{}, 0, 0x8000000000000000, by decide, rfl⟩

end Document

end Jianpu
