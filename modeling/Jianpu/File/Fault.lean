import Jianpu.Text.Quoted
import Jianpu.Text.Utf8

set_option autoImplicit false

/-!
What goes wrong with files. The first faults are those of an operating system, which numbers them; the
others are faults of text: a path that no system call can take, and text that UTF-8 has no octets for or
octets that are no text.
-/
namespace Jianpu

/-- What keeps a path from being used, or a text from being read or written. -/
inductive FileFault where
  | missing
  | exists
  | notDirectory
  | isDirectory
  | nameTooLong
  /-- The path holds the character that ends paths. -/
  | nullCharacter
  | unencodable (fault : Text.Utf8.EncodingFault)
  | undecodable (fault : Text.Utf8.Fault)
  deriving Repr, DecidableEq

namespace FileFault

/-- The number and the words of an operating system for a fault of its own. -/
def systemText? : FileFault → Option (Nat × String)
  | .missing => some (2, "No such file or directory")
  | .exists => some (17, "File exists")
  | .notDirectory => some (20, "Not a directory")
  | .isDirectory => some (21, "Is a directory")
  | .nameTooLong => some (36, "File name too long")
  | .nullCharacter | .unencodable _ | .undecodable _ => none

/-- True of the faults of an operating system. -/
def isSystem (fault : FileFault) : Bool :=
  fault.systemText?.isSome

end FileFault

/-- A fault and the path that was given. -/
structure FileError where
  fault : FileFault
  path : String
  deriving Repr, DecidableEq

/-- The wording of a file error. -/
def FileError.message (error : FileError) : String :=
  match error.fault with
  | .unencodable fault => fault.message
  | .undecodable fault => fault.message
  | fault =>
    match fault.systemText? with
    | some (number, words) =>
      "[Errno " ++ toString number ++ "] " ++ words ++ ": " ++ Text.quoted error.path
    | none => "embedded null byte"

end Jianpu
