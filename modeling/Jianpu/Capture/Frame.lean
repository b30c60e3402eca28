set_option autoImplicit false

/-!
Pitch detections: what a source of sound is heard to be at a time.
-/
namespace Jianpu.Capture

/-- A detection: a time in seconds, a frequency in Hz and a clarity from 0 to 1. -/
structure Frame (α : Type) where
  time : α
  frequency : α
  clarity : α

end Jianpu.Capture
