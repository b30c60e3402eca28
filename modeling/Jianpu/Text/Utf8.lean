import Jianpu.Text.CodePoint

set_option autoImplicit false

/-!
UTF-8 octets read as text and written from it. Reading stops at the first octet that rules the text
out, and the fault names the octets of the unfinished character read so far and what is wrong with the
next one; or what is no text is replaced and the reading goes on. Writing fails for lone halves of pairs
alone, and the fault names the first of them.
-/
namespace Jianpu.Text.Utf8

/-- What is wrong with an octet sequence. -/
inductive Reason where
  /-- The octet starts no character. -/
  | invalidStart
  /-- The octet cannot follow the ones before it. -/
  | invalidContinuation
  /-- The text ends inside a character. -/
  | unexpectedEnd
  deriving Repr, DecidableEq

/-- The wording of a reason. -/
def Reason.text : Reason → String
  | .invalidStart => "invalid start byte"
  | .invalidContinuation => "invalid continuation byte"
  | .unexpectedEnd => "unexpected end of data"

/-- An undecodable place: its first octet, the count of octets it spans, and the reason. -/
structure Fault where
  first : UInt8
  position : Nat
  length : Nat
  reason : Reason
  deriving Repr, DecidableEq

/-- A lower-case hexadecimal digit. -/
def hexDigit (n : Nat) : Char :=
  if n < 10 then Char.ofNat (48 + n) else Char.ofNat (87 + n)

/-- The wording of a fault. -/
def Fault.message (fault : Fault) : String :=
  let place :=
    if fault.length = 1 then
      let octet := fault.first.toNat
      "byte 0x" ++ String.ofList [hexDigit (octet / 16), hexDigit (octet % 16)]
        ++ " in position " ++ toString fault.position
    else
      "bytes in position " ++ toString fault.position ++ "-"
        ++ toString (fault.position + fault.length - 1)
  "'utf-8' codec can't decode " ++ place ++ ": " ++ fault.reason.text

/-- The number of octets that follow a first octet, and the range of the one right after it. -/
def continuation? (first : Nat) : Option (Nat × Nat × Nat) :=
  if first < 0xC2 then none
  else if first ≤ 0xDF then some (1, 0x80, 0xBF)
  else if first = 0xE0 then some (2, 0xA0, 0xBF)
  else if first = 0xED then some (2, 0x80, 0x9F)
  else if first ≤ 0xEF then some (2, 0x80, 0xBF)
  else if first = 0xF0 then some (3, 0x90, 0xBF)
  else if first ≤ 0xF3 then some (3, 0x80, 0xBF)
  else if first = 0xF4 then some (3, 0x80, 0x8F)
  else none

/-- The payload bits of a first octet that one, two or three others follow. -/
def leadBits (first count : Nat) : Nat :=
  match count with
  | 1 => first % 32
  | 2 => first % 16
  | _ => first % 8

/-- Reads the octets that follow a first one: the code point and the rest, or the number of octets
that were good and the reason to stop. -/
def follow (code : Nat) : (count low high good : Nat) → List UInt8 →
    Except (Nat × Reason) (Nat × List UInt8)
  | 0, _, _, _, octets => .ok (code, octets)
  | _ + 1, _, _, good, [] => .error (good, .unexpectedEnd)
  | count + 1, low, high, good, octet :: rest =>
    if low ≤ octet.toNat ∧ octet.toNat ≤ high then
      follow (code * 64 + octet.toNat % 64) count 0x80 0xBF (good + 1) rest
    else .error (good, .invalidContinuation)

/-- The character that an octet and those after it start with, the number of its octets and the rest
after them; or the number of octets that are no text, and why. -/
def character? (first : UInt8) (rest : List UInt8) :
    Except (Nat × Reason) (Char × Nat × List UInt8) :=
  if first.toNat < 0x80 then .ok (Char.ofNat first.toNat, 1, rest)
  else
    match continuation? first.toNat with
    | none => .error (1, .invalidStart)
    | some (count, low, high) =>
      (follow (leadBits first.toNat count) count low high 1 rest).map fun (code, remaining) =>
        (Char.ofNat code, count + 1, remaining)

/-- Decodes octets from a position on, at most `fuel` characters, and spells the characters. -/
def decodeFrom : (fuel position : Nat) → List UInt8 → Except Fault (List Char)
  | 0, _, _ => .ok []
  | _ + 1, _, [] => .ok []
  | fuel + 1, position, first :: rest =>
    match character? first rest with
    | .error (length, reason) => .error ⟨first, position, length, reason⟩
    | .ok (c, count, remaining) => do
      let more ← decodeFrom fuel (position + count) remaining
      return (CodePoint.char c).spelling ++ more

/-- The spelling of the characters that octets spell. -/
def decode (octets : List UInt8) : Except Fault (List Char) :=
  decodeFrom octets.length 0 octets

/-- Decodes octets, at most `fuel` characters and faults, with code points in place of every run of
octets that is no text. -/
def replacingFrom (replacement : List UInt8 → List CodePoint) :
    (fuel : Nat) → List UInt8 → List CodePoint
  | 0, _ => []
  | _ + 1, [] => []
  | fuel + 1, first :: rest =>
    match character? first rest with
    | .ok (c, _, remaining) => .char c :: replacingFrom replacement fuel remaining
    | .error (length, _) =>
      replacement ((first :: rest).take length)
        ++ replacingFrom replacement fuel ((first :: rest).drop length)

/-- The code points that octets spell, with others in place of what is no text. -/
def replacing (replacement : List UInt8 → List CodePoint) (octets : List UInt8) : List CodePoint :=
  replacingFrom replacement octets.length octets

/-- The octets of a character. -/
def charOctets (c : Char) : List UInt8 :=
  (String.singleton c).toUTF8.toList

/-- Lone halves of pairs in a text: the first one, its position, and the position of the last one that
follows it without a gap. -/
structure EncodingFault where
  half : Nat
  first : Nat
  last : Nat
  deriving Repr, DecidableEq

/-- The wording of an encoding fault. -/
def EncodingFault.message (fault : EncodingFault) : String :=
  let digits := [fault.half / 4096, fault.half / 256 % 16, fault.half / 16 % 16, fault.half % 16]
  let place :=
    if fault.first = fault.last then
      "character '\\u" ++ String.ofList (digits.map hexDigit) ++ "' in position " ++ toString fault.first
    else "characters in position " ++ toString fault.first ++ "-" ++ toString fault.last
  "'utf-8' codec can't encode " ++ place ++ ": surrogates not allowed"

/-- The lone halves in a text from the first one on that is not tolerated. -/
def faultUnless? (isTolerated : CodePoint → Bool) (text : String) : Option EncodingFault :=
  let points := codePoints text
  let before := points.takeWhile fun point => !point.isHalf || isTolerated point
  match points.drop before.length with
  | [] => none
  | point :: rest =>
    some ⟨point.number, before.length, before.length + (rest.takeWhile CodePoint.isHalf).length⟩

/-- The first lone halves in a text. -/
def encodingFault? (text : String) : Option EncodingFault :=
  faultUnless? (fun _ => false) text

/-- The octets that spell a text. -/
def encode (text : String) : Except EncodingFault (List UInt8) :=
  match encodingFault? text with
  | some fault => .error fault
  | none => .ok (plain text).toUTF8.toList

end Jianpu.Text.Utf8
