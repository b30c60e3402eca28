import Jianpu.Capture.Detector
import Jianpu.Json.Reader

set_option autoImplicit false

/-!
Estimates as JSON, the form in which an estimator hands them over: the frequencies, with null for what
is no number, and the probabilities.
-/
namespace Jianpu.Capture.Estimate

/-- The numbers of a member. -/
def numbersOf (json : Json) (name : String) : List Float :=
  (((json.get? name).bind Json.items?).getD []).map fun item =>
    (item.amount?.map Number.Amount.toFloat).getD (0 / 0)

/-- An estimate. -/
def ofJson (json : Json) : Estimate :=
  ⟨numbersOf json "f0", numbersOf json "prob"⟩

/-- The estimate of a recording, or the reason for which it could not be decoded. -/
def ofRecordingJson (json : Json) : Except String Estimate :=
  match (json.get? "error").bind Json.string? with
  | some reason => .error reason
  | none => .ok (ofJson json)

/-- The estimate of the octets of a recording. -/
def ofOctets (octets : List UInt8) : Except String Estimate :=
  ofRecordingJson ((Json.ofOctets? octets).getD .null)

end Jianpu.Capture.Estimate
