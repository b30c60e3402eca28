import Jianpu.Text.Utf8

set_option autoImplicit false

/-!
Names of files. An operating system knows a name by its octets, and a text names a file by the octets
that spell it. Octets that are no text are kept as halves, so that every name has a text; of the texts
that spell one name, one is its own.
-/
namespace Jianpu.FileName

/-- What keeps a text from being a name: lone halves that spell no octet. -/
def fault? (text : String) : Option Text.Utf8.EncodingFault :=
  Text.Utf8.faultUnless? Text.CodePoint.isOctet text

/-- The octets of a code point. A half that spells none has none. -/
def pointOctets : Text.CodePoint → List UInt8
  | .char c => Text.Utf8.charOctets c
  | .half index => (Text.CodePoint.half index).octet?.toList

/-- The octets of a name. -/
def octets (text : String) : List UInt8 :=
  (Text.codePoints text).flatMap pointOctets

/-- The name of octets: what is no text among them is spelled by halves. -/
def ofOctets (octets : List UInt8) : String :=
  Text.ofCodePoints (Text.Utf8.replacing (fun lost => lost.map Text.CodePoint.ofOctet) octets)

/-- The text of a name's octets. That of plain text is the name as it stands. -/
def settled (text : String) : String :=
  if text.toList.all fun c => c.toNat < 0x80 then text else ofOctets (octets text)

/-- A name as messages show it: every run of octets that is no text is one replacement character. -/
def shown (text : String) : String :=
  Text.ofCodePoints (Text.Utf8.replacing (fun _ => [.char '\uFFFD']) (octets text))

end Jianpu.FileName
