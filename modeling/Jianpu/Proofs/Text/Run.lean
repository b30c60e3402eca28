import Mathlib.Data.List.TakeWhile

/-! Maximal runs. The readers of notation and of numerals take a run of a class
of characters off the front of a text; what stands behind it decides where the
run ends. -/

set_option autoImplicit false

namespace Jianpu.Text

variable {p : Char → Bool}

/-- A run of a class is taken whole, and nothing of what does not go on with it. -/
theorem takeWhile_run {run : List Char} (inside : ∀ c ∈ run, p c = true) {after : List Char}
    (stops : ∀ c ∈ after.head?, p c = false) :
    (run ++ after).takeWhile p = run ∧ (run ++ after).dropWhile p = after := by
  rw [List.takeWhile_append_of_pos inside, List.dropWhile_append_of_pos inside]
  cases after with
  | nil => simp
  | cons c after =>
      have stop : ¬ p c = true := by simpa using stops c rfl
      rw [List.takeWhile_cons_of_neg stop, List.dropWhile_cons_of_neg stop]
      simp

theorem dropWhile_stops {cs : List Char} : ∀ c ∈ (cs.dropWhile p).head?, p c = false := by
  intro c first
  have stop := List.head?_dropWhile_not p cs
  rw [Option.mem_def.mp first] at stop
  simpa using stop

end Jianpu.Text
