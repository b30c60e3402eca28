set_option autoImplicit false

/-!
The log of the program: what passes it and how a line of it reads. Setting the log up again puts the
new handler in place of the old ones, so that no line is written twice.
-/
namespace Jianpu

/-- The least weight of a line that passes. -/
inductive LogLevel where
  | debug
  | warning
  deriving Repr, DecidableEq

/-- The name of a level. -/
def LogLevel.name : LogLevel → String
  | .debug => "DEBUG"
  | .warning => "WARNING"

/-- The state of the log. -/
structure Log where
  level : LogLevel := .warning
  /-- The formats of the lines that the handlers write. -/
  handlers : List String := []
  deriving Repr, DecidableEq

namespace Log

/-- The name of the log. -/
def name : String := "jianpuviz"

/-- How a line reads: time, level, log and message. -/
def lineFormat : String := "%(asctime)s %(levelname)s %(name)s: %(message)s"

/-- Sets the log up, with more lines when it is verbose. -/
def configured (_log : Log) (verbose : Bool) : Log where
  level := if verbose then .debug else .warning
  handlers := [lineFormat]

end Log

end Jianpu
