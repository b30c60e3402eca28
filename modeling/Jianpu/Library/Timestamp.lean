set_option autoImplicit false

/-!
Times as records keep them: year, month, day, and the time of day to the millisecond, in digits of fixed
width, so that the order of the texts is the order of the times.
-/
namespace Jianpu.Timestamp

/-- A number in at least `width` digits. -/
def digits (width n : Nat) : String :=
  let text := toString n
  String.ofList (List.replicate (width - text.length) '0') ++ text

/-- The date of a day, counted from the first of January 1970. The years are counted from March on, so
that the leap day is the last of its year, in eras of 400 years. -/
def dateText (day : Nat) : String :=
  let shifted := day + 719468
  let era := shifted / 146097
  let dayOfEra := shifted % 146097
  let yearOfEra := (dayOfEra - dayOfEra / 1460 + dayOfEra / 36524 - dayOfEra / 146096) / 365
  let dayOfYear := dayOfEra - (365 * yearOfEra + yearOfEra / 4 - yearOfEra / 100)
  let monthFromMarch := (5 * dayOfYear + 2) / 153
  let dayOfMonth := dayOfYear - (153 * monthFromMarch + 2) / 5 + 1
  let month := if monthFromMarch < 10 then monthFromMarch + 3 else monthFromMarch - 9
  let year := yearOfEra + era * 400 + if month ≤ 2 then 1 else 0
  digits 4 year ++ "-" ++ digits 2 month ++ "-" ++ digits 2 dayOfMonth

/-- The text of a time, given in milliseconds from the start of 1970. -/
def text (milliseconds : Nat) : String :=
  let seconds := milliseconds / 1000
  let clock := digits 2 (seconds / 3600 % 24) ++ ":" ++ digits 2 (seconds / 60 % 60) ++ ":"
    ++ digits 2 (seconds % 60) ++ "." ++ digits 3 (milliseconds % 1000)
  dateText (seconds / 86400) ++ "T" ++ clock

end Jianpu.Timestamp
