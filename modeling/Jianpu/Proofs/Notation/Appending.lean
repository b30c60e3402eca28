import Jianpu.Document
import Jianpu.Proofs.Notation.Joining
import Jianpu.Proofs.Notation.Writing
import Jianpu.Proofs.Text.Trimming

/-! A token appended to a text. Blanks at the end of the text give way to one
space, which ends whatever stands there, so the tokens of the text stay as they
are, even those of a bracket that was left open. -/

set_option autoImplicit false

namespace Jianpu.Notation

open Number (Scalar)
open Text (isBlank trimmed_of_solid trimmedEnd trimmedEnd_append)

/-! Blanks -/

theorem not_isBlank_of_mark {c : Char}
    (mark : c ∈ barGlyphs ++ degreeDigits ++ noteModifiers ++ ['[', ']']) : isBlank c = false := by
  have table : ((barGlyphs ++ degreeDigits ++ noteModifiers ++ ['[', ']']).all
      fun c => !isBlank c) = true := by
    decide
  simpa using List.all_eq_true.mp table c mark

theorem separates_of_isBlank {c : Char} (blank : isBlank c = true) : Separates c := by
  have other : c ∉ barGlyphs ++ degreeDigits ++ noteModifiers ++ ['[', ']'] := by
    intro mark
    rw [not_isBlank_of_mark mark] at blank
    cases blank
  simp only [List.mem_append, List.mem_cons, List.not_mem_nil, or_false, not_or] at other
  obtain ⟨⟨⟨bar, degree⟩, modifier⟩, opening, closing⟩ := other
  exact ⟨bar, degree, modifier, opening, closing⟩

theorem tokens_blanks {blanks : List Char} (blank : ∀ c ∈ blanks, isBlank c = true) :
    tokens blanks = [] := by
  apply tokens_plain
  intro c member
  obtain ⟨bar, degree, -, opening, -⟩ := separates_of_isBlank (blank c member)
  exact ⟨bar, degree, opening⟩

theorem tokens_trimmedEnd (cs : List Char) : tokens (trimmedEnd cs) = tokens cs := by
  obtain ⟨blanks, split, blank⟩ := trimmedEnd_append cs
  generalize trimmedEnd cs = kept at split
  subst split
  cases blanks with
  | nil => rw [List.append_nil]
  | cons first rest =>
      -- The first blank separates, and behind it no bracket is closed.
      have restBlank : ∀ c ∈ rest, isBlank c = true :=
        fun c member => blank c (List.mem_cons_of_mem first member)
      have unclosed : ']' ∉ rest := by
        intro closing
        exact absurd (restBlank ']' closing) (by decide)
      rw [tokens_append_separator (separates_of_isBlank (blank first List.mem_cons_self))
        (.inr unclosed), tokens_blanks restBlank, List.append_nil]

/-! Appending -/

/-- A token that is appended to a text adds its own tokens to those of the text. -/
theorem tokens_appended (content : String) {token : String}
    (solid : ∀ c ∈ token.toList, isBlank c = false) (unclosed : ']' ∉ token.toList) :
    tokens (Document.appended content token).toList =
      tokens content.toList ++ tokens token.toList := by
  have whole : (Text.trim token).toList = token.toList := by
    rw [Text.trim, String.toList_ofList, trimmed_of_solid solid]
  have kept := tokens_trimmedEnd content.toList
  unfold Document.appended
  dsimp only
  split
  · rename_i empty
    have nothing : trimmedEnd content.toList = [] := by
      simpa [Text.trimEnd] using empty
    rw [whole, ← kept, nothing, tokens_nil, List.nil_append]
  · have spaced : (Text.trimEnd content ++ " " ++ Text.trim token).toList =
        trimmedEnd content.toList ++ ' ' :: token.toList := by
      simp [Text.trimEnd, whole]
    rw [spaced, tokens_append_separator separates_space (.inr unclosed), kept]

/-- The token that a capture writes for a pitch is read as one more note at the
pitch, of one beat. -/
theorem eventsOf_appended {α : Type} [Scalar α] {key : Key} {pitch : Int} {token : String}
    (written : Pitch.captureToken? key pitch = some token) (content : String) :
    ∃ note : Note α, note.pitch = pitch ∧ note.duration = durationOf [] ∧ note.source = token ∧
      eventsOf key (Document.appended content token).toList =
        eventsOf key content.toList ++ [.note note] := by
  obtain ⟨digit, spelled, degree, above⟩ := captureToken?_spelled written
  have noSharp : ([] : List Char) = [] ∨ ([] : List Char) = ['#'] := .inl rfl
  have noLength : ∀ c ∈ ([] : List Char), c ∈ lengthModifiers := by simp
  obtain ⟨marks, sounding, length⟩ :=
    noteOf_spelled (α := α) noSharp (by simpa using above) noLength
  rw [List.nil_append, List.append_nil] at marks sounding length
  have glyph : ∀ c ∈ token.toList, c ∈ degreeDigits ∨ c ∈ noteModifiers := by
    rw [spelled]
    intro c member
    rcases List.mem_cons.mp member with rfl | mark
    · exact .inl degree
    · exact .inr (marks c mark)
  have solid : ∀ c ∈ token.toList, isBlank c = false := by
    intro c member
    apply not_isBlank_of_mark
    rcases glyph c member with degree | modifier
    · simp [degree]
    · simp [modifier]
  have unclosed : ']' ∉ token.toList := by
    intro member
    exact absurd (glyph ']' member) (by decide)
  refine ⟨noteOf key digit (Pitch.octaveMarks (Pitch.octaveOf key pitch)), sounding, length, ?_, ?_⟩
  · simp only [noteOf]
    rw [← spelled, String.ofList_toList]
  · rw [eventsOf, tokens_appended content solid unclosed, List.map_append, spelled,
      tokens_note degree marks]
    rfl

end Jianpu.Notation
