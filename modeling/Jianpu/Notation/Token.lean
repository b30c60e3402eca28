set_option autoImplicit false

/-!
The tokens of melody text. Three forms are tried in order at every position: a run of bar glyphs, a
bracketed group, and a digit 1 to 7 with the modifiers after it. A character where none of them starts
is annotation and belongs to no token.
-/
namespace Jianpu.Notation

/-- The glyphs of barlines and repeat signs. -/
def isBarGlyph (c : Char) : Bool :=
  c == '|' || c == ':'

/-- The digits of scale degrees. -/
def isDegreeDigit (c : Char) : Bool :=
  '1' ≤ c && c ≤ '7'

/-- The characters that may follow a degree digit. -/
def isModifier (c : Char) : Bool :=
  ['b', '#', 'n', '\'', '"', ',', '.', '_', '=', '-'].contains c

/-- A token with its characters. -/
inductive Token where
  /-- A run of bar glyphs, or a group with its brackets. -/
  | bar (marker : List Char)
  /-- A degree digit and its modifiers. -/
  | note (digit : Char) (modifiers : List Char)
  deriving Repr, DecidableEq

/-- The characters of a token as written. -/
def Token.chars : Token → List Char
  | .bar marker => marker
  | .note digit modifiers => digit :: modifiers

/-- The inside of a group and the rest after its closing bracket, from right after the opening one. An
empty or unclosed pair of brackets is no group. -/
def groupBody? (cs : List Char) : Option (List Char × List Char) :=
  let inside := cs.takeWhile (· != ']')
  match cs.dropWhile (· != ']') with
  | [] => none
  | _ :: rest => if inside.isEmpty then none else some (inside, rest)

/-- The token that starts at the first character of a text, and the rest after it. -/
def token? : List Char → Option (Token × List Char)
  | [] => none
  | c :: rest =>
    if isBarGlyph c then
      some (.bar (c :: rest.takeWhile isBarGlyph), rest.dropWhile isBarGlyph)
    else if c = '[' then
      (groupBody? rest).map fun (inside, remainder) => (.bar ('[' :: inside ++ [']']), remainder)
    else if isDegreeDigit c then
      some (.note c (rest.takeWhile isModifier), rest.dropWhile isModifier)
    else none

theorem length_dropWhile_le (p : Char → Bool) (cs : List Char) :
    (cs.dropWhile p).length ≤ cs.length := by
  induction cs with
  | nil => simp
  | cons c cs ih =>
    rw [List.dropWhile_cons]
    split
    · exact Nat.le_succ_of_le ih
    · exact Nat.le_refl _

theorem groupBody?_length {cs inside rest : List Char}
    (found : groupBody? cs = some (inside, rest)) : rest.length < cs.length := by
  have bound := length_dropWhile_le (· != ']') cs
  unfold groupBody? at found
  dsimp only at found
  split at found
  · simp at found
  · rename_i head remainder dropped
    rw [dropped, List.length_cons] at bound
    split at found
    · simp at found
    · simp only [Option.some.injEq, Prod.mk.injEq] at found
      rw [← found.2]
      omega

/-- A token takes at least one character. -/
theorem token?_length {cs rest : List Char} {found : Token}
    (read : token? cs = some (found, rest)) : rest.length < cs.length := by
  cases cs with
  | nil => simp [token?] at read
  | cons c cs =>
    simp only [token?] at read
    split at read
    · simp only [Option.some.injEq, Prod.mk.injEq] at read
      have := length_dropWhile_le isBarGlyph cs
      simp only [List.length_cons, ← read.2]
      omega
    · split at read
      · simp only [Option.map_eq_some_iff] at read
        obtain ⟨⟨inside, remainder⟩, body, result⟩ := read
        have := groupBody?_length body
        simp only [Prod.mk.injEq] at result
        simp only [List.length_cons, ← result.2]
        omega
      · split at read
        · simp only [Option.some.injEq, Prod.mk.injEq] at read
          have := length_dropWhile_le isModifier cs
          simp only [List.length_cons, ← read.2]
          omega
        · simp at read

/-- The tokens of a text in order. -/
def tokens (cs : List Char) : List Token :=
  match _found : token? cs with
  | some (first, rest) => first :: tokens rest
  | none =>
    match cs with
    | [] => []
    | _ :: rest => tokens rest
termination_by cs.length
decreasing_by
  · exact token?_length _found
  · simp

end Jianpu.Notation
