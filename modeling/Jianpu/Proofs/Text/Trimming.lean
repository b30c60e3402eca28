import Jianpu.Proofs.Text.Run
import Jianpu.Text.Blank

/-! Blanks at the ends of a text. What is left without them begins and ends with
something visible, and is all that lies between blanks. -/

set_option autoImplicit false

namespace Jianpu.Text

/-- A text that neither begins nor ends with a blank. -/
structure IsTrimmed (cs : List Char) : Prop where
  begins : ∀ c ∈ cs.head?, isBlank c = false
  ends : ∀ c ∈ cs.getLast?, isBlank c = false

variable {cs front back : List Char}

theorem trimmedEnd_append (cs : List Char) :
    ∃ blanks, cs = trimmedEnd cs ++ blanks ∧ ∀ c ∈ blanks, isBlank c = true := by
  refine ⟨(cs.reverse.takeWhile isBlank).reverse, ?_, ?_⟩
  · rw [trimmedEnd, dropEndWhile, ← List.reverse_append, List.takeWhile_append_dropWhile,
      List.reverse_reverse]
  · intro c member
    exact List.mem_takeWhile_imp (List.mem_reverse.mp member)

theorem trimmedEnd_ends (cs : List Char) : ∀ c ∈ (trimmedEnd cs).getLast?, isBlank c = false := by
  rw [trimmedEnd, dropEndWhile, List.getLast?_reverse]
  exact dropWhile_stops

/-- Blanks behind something visible are all that is taken from the end. -/
theorem trimmedEnd_of_ends (ends : ∀ c ∈ cs.getLast?, isBlank c = false)
    (blank : ∀ c ∈ back, isBlank c = true) : trimmedEnd (cs ++ back) = cs := by
  rw [trimmedEnd, dropEndWhile, List.reverse_append,
    (takeWhile_run (p := isBlank) (fun c member => blank c (List.mem_reverse.mp member))
      (by simpa using ends)).2,
    List.reverse_reverse]

theorem trimmed_split (cs : List Char) :
    ∃ front back, cs = front ++ trimmed cs ++ back ∧ (∀ c ∈ front, isBlank c = true) ∧
      ∀ c ∈ back, isBlank c = true := by
  obtain ⟨back, split, blank⟩ := trimmedEnd_append (cs.dropWhile isBlank)
  refine ⟨cs.takeWhile isBlank, back, ?_, fun c => List.mem_takeWhile_imp, blank⟩
  rw [List.append_assoc, trimmed, ← split, List.takeWhile_append_dropWhile]

theorem isTrimmed_trimmed (cs : List Char) : IsTrimmed (trimmed cs) := by
  refine ⟨?_, trimmedEnd_ends _⟩
  intro c first
  obtain ⟨blanks, split, -⟩ := trimmedEnd_append (cs.dropWhile isBlank)
  have stops : ∀ c ∈ (cs.dropWhile isBlank).head?, isBlank c = false := dropWhile_stops
  refine stops c ?_
  rw [split, List.head?_append, ← trimmed, Option.mem_def.mp first]
  rfl

/-- What lies between blanks is left. -/
theorem trimmed_of_isTrimmed (core : IsTrimmed cs) (before : ∀ c ∈ front, isBlank c = true)
    (after : ∀ c ∈ back, isBlank c = true) : trimmed (front ++ cs ++ back) = cs := by
  cases cs with
  | nil =>
      have blank : ∀ c ∈ front ++ [] ++ back, isBlank c = true := by
        simpa [or_imp, forall_and] using ⟨before, after⟩
      rw [trimmed, List.dropWhile_eq_nil_iff.mpr blank]
      rfl
  | cons c cs =>
      rw [List.append_assoc, trimmed, (takeWhile_run before (by simpa using core.begins)).2,
        trimmedEnd_of_ends core.ends after]

theorem IsTrimmed.trimmed_eq (core : IsTrimmed cs) : trimmed cs = cs := by
  have nothing : ∀ c ∈ [], isBlank c = true := by simp
  simpa using trimmed_of_isTrimmed core nothing nothing

theorem isTrimmed_nil : IsTrimmed [] :=
  ⟨by simp, by simp⟩

/-- Only the ends count. -/
theorem IsTrimmed.around (first : IsTrimmed front) (someFirst : front ≠ []) (middle : List Char)
    (second : IsTrimmed back) (someSecond : back ≠ []) :
    IsTrimmed (front ++ middle ++ back) := by
  obtain ⟨c, front, rfl⟩ := List.exists_cons_of_ne_nil someFirst
  refine ⟨by simpa using first.begins, ?_⟩
  intro d last
  rw [List.getLast?_append, List.getLast?_eq_some_getLast someSecond, Option.some_or] at last
  exact second.ends d (by rw [List.getLast?_eq_some_getLast someSecond]; exact last)

theorem isTrimmed_of_solid (solid : ∀ c ∈ cs, isBlank c = false) : IsTrimmed cs :=
  ⟨fun c first => solid c (List.mem_of_head? first),
    fun c last => solid c (List.mem_of_getLast? last)⟩

theorem trimmed_of_solid (solid : ∀ c ∈ cs, isBlank c = false) : trimmed cs = cs :=
  (isTrimmed_of_solid solid).trimmed_eq

end Jianpu.Text
