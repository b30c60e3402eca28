set_option autoImplicit false

/-!
The catalog of keys. A key fixes the pitch of degree 1 and the names of the seven degrees. The catalog
holds the twelve major keys and, last, a key that shows bare numbers and sounds in C.
-/
namespace Jianpu

/-- A key a melody can be written in. -/
structure Key where
  /-- Display name. -/
  name : String
  /-- Spelling of the tonic. -/
  root : String
  /-- Pitch class of degree 1, counted in semitones above C. -/
  tonicClass : Int
  /-- Display names of degrees 1 to 7. -/
  degreeLabels : Vector String 7
  /-- Whether degrees are shown as bare numbers. -/
  numbersOnly : Bool := false
  deriving DecidableEq

namespace Key

/-- The catalog, in the order of its indexes. -/
def catalog : List Key :=
  [ ⟨"C Major", "C", 0, #v["C", "D", "E", "F", "G", "A", "B"], false⟩,
    ⟨"G Major", "G", 7, #v["G", "A", "B", "C", "D", "E", "F#"], false⟩,
    ⟨"D Major", "D", 2, #v["D", "E", "F#", "G", "A", "B", "C#"], false⟩,
    ⟨"A Major", "A", 9, #v["A", "B", "C#", "D", "E", "F#", "G#"], false⟩,
    ⟨"E Major", "E", 4, #v["E", "F#", "G#", "A", "B", "C#", "D#"], false⟩,
    ⟨"B Major", "B", 11, #v["B", "C#", "D#", "E", "F#", "G#", "A#"], false⟩,
    ⟨"F# Major", "F#", 6, #v["F#", "G#", "A#", "B", "C#", "D#", "E#"], false⟩,
    ⟨"Db Major", "Db", 1, #v["Db", "Eb", "F", "Gb", "Ab", "Bb", "C"], false⟩,
    ⟨"Ab Major", "Ab", 8, #v["Ab", "Bb", "C", "Db", "Eb", "F", "G"], false⟩,
    ⟨"Eb Major", "Eb", 3, #v["Eb", "F", "G", "Ab", "Bb", "C", "D"], false⟩,
    ⟨"Bb Major", "Bb", 10, #v["Bb", "C", "D", "Eb", "F", "G", "A"], false⟩,
    ⟨"F Major", "F", 5, #v["F", "G", "A", "Bb", "C", "D", "E"], false⟩,
    ⟨"Numbers Only", "C", 0, #v["1", "2", "3", "4", "5", "6", "7"], true⟩ ]

/-- The key of melodies whose key is not known. -/
def cMajor : Key :=
  ⟨"C Major", "C", 0, #v["C", "D", "E", "F", "G", "A", "B"], false⟩

instance : Inhabited Key := ⟨cMajor⟩

/-- The index of the key that is used when none is given. -/
def defaultIndex : Int := 0

/-- The index of the key of bare numbers. -/
def numbersOnlyIndex : Nat := 12

/-- The key at a catalog index. -/
def at? (index : Int) : Option Key :=
  if 0 ≤ index then catalog[index.toNat]? else none

/-- The key at a catalog index, C Major outside the catalog. -/
def atOrDefault (index : Int) : Key :=
  (at? index).getD cMajor

/-- The key of a stored index: C Major unless it is a whole number in the catalog. -/
def ofStored (index : Option Int) : Key :=
  index.elim cMajor atOrDefault

/-- An index outside the catalog. -/
structure OutOfCatalog where
  index : Int
  deriving Repr, DecidableEq

/-- The wording of an index outside the catalog. -/
def OutOfCatalog.message (fault : OutOfCatalog) : String :=
  "Key index " ++ toString fault.index ++ " is outside the catalog (0–"
    ++ toString (catalog.length - 1) ++ ")."

/-- The key at an index that has to be in the catalog. -/
def resolve (index : Int) : Except OutOfCatalog Key :=
  match at? index with
  | some key => .ok key
  | none => .error ⟨index⟩

/-- The display name of a degree; there is none outside 1 to 7. -/
def label? (key : Key) (degree : Int) : Option String :=
  if 1 ≤ degree then key.degreeLabels[(degree - 1).toNat]? else none

/-- The wording for a degree without a name. -/
def unnamedDegreeMessage (degree : Int) : String :=
  "Scale degree " ++ toString degree ++ " is outside 1–7."

/-- The catalog index of a key signature, as a count of sharps or, below zero, of flats. Signatures
past the catalog's spellings fold onto the enharmonic key it has, and unknown ones onto C Major. -/
def indexOfFifths (fifths : Int) : Nat :=
  if 0 ≤ fifths ∧ fifths ≤ 7 then fifths.toNat
  else if -4 ≤ fifths ∧ fifths ≤ -1 then (12 + fifths).toNat
  else if fifths = -5 then 7
  else if fifths = -6 then 6
  else if fifths = -7 then 5
  else 0

/-- The key signature of a catalog index; outside the catalog it is that of C Major. -/
def fifthsOfIndex (index : Int) : Int :=
  if 0 ≤ index ∧ index ≤ 6 then index
  else if 7 ≤ index ∧ index ≤ 11 then index - 12
  else 0

end Key

end Jianpu
