import Jianpu.Json.Reader
import Jianpu.Number.Scalar
import Jianpu.Score.Stream

set_option autoImplicit false

/-!
Streams as JSON, the form in which a decoder hands them over. Lengths and offsets are numbers or exact
fractions such as `"1/3"`; a pitch is readable only as a whole number, and so is a signature, and truth
values are whole numbers here.
-/
namespace Jianpu.ScoreStream

open Number (Amount Fault)

/-- A stream whose lengths and offsets may be unreadable. -/
abbrev Decoded := ScoreStream (Except Fault Amount)

/-- An exact value in binary64, which fails beyond its range. -/
def settled (value : Rat) : Except Fault Amount :=
  match Number.Binary64.nearest? value with
  | some x => .ok (.real x)
  | none => .error .tooLarge

/-- A fraction as text. -/
def fractionOf (text : String) : Except Fault Amount :=
  let cs := text.toList
  let numerator := cs.takeWhile (· != '/')
  let denominator := (cs.dropWhile (· != '/')).drop 1
  let read (digits : List Char) : Int := (Text.readInt digits).toOption.getD 1
  settled ((read numerator : Rat) / (if denominator.isEmpty then 1 else read denominator))

/-- A number as it stands. -/
def finite (amount : Amount) : Except Fault Amount :=
  match amount.value? with
  | some value => settled value
  | none => .error (.ofNonFinite amount.toFloat)

/-- A length or an offset; zero when it is missing. -/
def quartersOf : Option Json → Except Fault Amount
  | some (.number amount) => finite amount
  | some (.string text) => fractionOf text
  | _ => .ok (.real 0)

/-- An element. -/
def elementOf (json : Json) : StreamElement (Except Fault Amount) :=
  { quarters := quartersOf (json.get? "ql")
    offset := quartersOf (json.get? "offset")
    isRest := ((json.get? "rest").bind Json.bool?).getD false
    pitches := (((json.get? "pitches").bind Json.items?).getD []).map Json.whole? }

/-- A part by itself. -/
def partOf (json : Json) : StreamPart (Except Fault Amount) :=
  { name := ((json.get? "name").bind Json.string?).getD ""
    elements := (((json.get? "elements").bind Json.items?).getD []).map elementOf }

/-- A stream, or the reason for which it could not be decoded. -/
def ofJson (json : Json) : Except String Decoded :=
  match (json.get? "parse_error").bind Json.string? with
  | some reason => .error reason
  | none =>
    .ok
      { parts := (((json.get? "parts").bind Json.items?).getD []).map partOf
        own := partOf json
        signatures := (((json.get? "signatures").bind Json.items?).getD []).map Json.whole? }

/-- The stream of the octets of a file. -/
def ofOctets (octets : List UInt8) : Except String Decoded :=
  ofJson ((Json.ofOctets? octets).getD .null)

end Jianpu.ScoreStream
