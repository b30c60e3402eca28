import Jianpu.Session

set_option autoImplicit false

/-!
Performing operations. The asides of a running capture are operations themselves, so the recursion is
bounded by a depth: asides below it are not performed.
-/
namespace Jianpu.Session

/-- Performs an operation that may run a capture, with the given performance of its asides. -/
def performWith (aside : List Operation → Session → Session) (operation : Operation)
    (session : Session) : Session × SessionReply :=
  match operation with
  | .loadDocument document => (session.loadDocument document, .ok .done)
  | .updateBlock index content => session.edited (session.document.updateBlock index content)
  | .addBlock kindName => session.edited (session.document.addNamedBlock kindName "")
  | .removeBlock index => session.removeBlock index
  | .moveBlock index target => session.edited (session.document.moveBlock index target)
  | .setKey index => session.setKey index
  | .setSettings settings => (session.adopt (session.document.setSettings settings), .ok .done)
  | .drawings =>
    match session.drawings? with
    | some drawings => (session, .ok (.drawn drawings))
    | none => (session, .error (.number .tooLarge))
  | .importScore score forceKey => session.importScore score forceKey
  | .startCapture index source playReference => session.startCapture index source playReference
  | .runCapture => session.runCapture aside
  | .stopCapture => (session.stopCapture, .ok .done)
  | .startPlayback => session.startPlayback
  | .stopPlayback => (session.stopPlayback, .ok .done)

/-- Performs an operation as an aside, whose reply is only noted. -/
def note (perform : Operation → Session → Session × SessionReply) (session : Session)
    (operation : Operation) : Session :=
  let (performed, reply) := perform operation session
  { performed with
    journal := { performed.journal with replies := performed.journal.replies ++ [reply] } }

/-- Performs an operation, with asides nested up to a depth. -/
def perform : (depth : Nat) → Operation → Session → Session × SessionReply
  | 0 => performWith fun _ session => session
  | depth + 1 => performWith fun operations session => operations.foldl (note (perform depth)) session

end Jianpu.Session
