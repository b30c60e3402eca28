import Jianpu.Text.CodePoint

set_option autoImplicit false

/-!
Words that look alike. The likeness of two words is the share of their characters that match: the
longest run they have in common matches, and so do, in the same way, the parts before it and the parts
after it. A word is proposed for another one when at least three fifths of the characters match.
-/
namespace Jianpu.Text.Similarity

/-- The length of the longest start that two lists have in common. -/
def commonStart : List CodePoint → List CodePoint → Nat
  | a :: left, b :: right => if a = b then commonStart left right + 1 else 0
  | _, _ => 0

/-- A run that two lists have in common: its place in each and its length. -/
structure Run where
  left : Nat
  right : Nat
  length : Nat
  deriving Repr, DecidableEq

/-- The longest common run. Of several it is the one that comes first in the left list, and of those
the one that comes first in the right list. -/
def longestRun (left right : List CodePoint) : Run :=
  (List.range left.length).foldl (fun best i =>
    (List.range right.length).foldl (fun best j =>
      let length := commonStart (left.drop i) (right.drop j)
      if best.length < length then ⟨i, j, length⟩ else best) best) ⟨0, 0, 0⟩

/-- The number of matching characters. Every run that is found shortens the lists, so that `fuel` may be
the length of one of them. -/
def matchedWithin : (fuel : Nat) → List CodePoint → List CodePoint → Nat
  | 0, _, _ => 0
  | fuel + 1, left, right =>
    let run := longestRun left right
    if run.length = 0 then 0
    else
      matchedWithin fuel (left.take run.left) (right.take run.right) + run.length
        + matchedWithin fuel (left.drop (run.left + run.length)) (right.drop (run.right + run.length))

/-- The likeness of two words, from 0 to 1; empty words are alike. -/
def likeness (left right : String) : Rat :=
  let first := codePoints left
  let second := codePoints right
  let total := first.length + second.length
  if total = 0 then 1 else (2 * matchedWithin first.length first second : Nat) / (total : Nat)

/-- True of words whose lengths allow them to be like enough: the shorter one may match as a whole. -/
def mayBeAlike (left right : String) : Bool :=
  let first := (codePoints left).length
  let second := (codePoints right).length
  3 * (first + second) ≤ 10 * min first second

/-- The most words that are proposed for one. -/
def mostProposals : Nat := 3

/-- The words that are proposed for a word, in alphabetical order: those that are most like it. Of words
that are equally like it, the last ones in alphabetical order come first. -/
def proposals (word : String) (candidates : List String) : List String :=
  let possible := candidates.filter fun candidate => mayBeAlike candidate word
  let scored := (possible.map fun candidate => (likeness candidate word, candidate)).filter
    fun entry => decide (3 / 5 ≤ entry.1)
  let ranked := scored.mergeSort fun first second =>
    decide (second.1 < first.1) || (first.1 == second.1 && decide (second.2 ≤ first.2))
  ((ranked.take mostProposals).map (·.2)).mergeSort fun first second => decide (first ≤ second)

end Jianpu.Text.Similarity
