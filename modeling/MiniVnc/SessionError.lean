import Mathlib.Data.List.Basic

/-! The ways a session ends early: every one of them is a `longjmp` to the cleanup block of
`handle_session`.
-/

namespace MiniVnc

/-- Why a session ended. The first two come from `sendw` and `recvw`, which report through
`perror`; each of the others is one text given to `session_err`.
-/
inductive SessionError where
  | sendFailed
  | recvFailed
  | eofOnSocket
  | illegalMessage
  | invalidColourDepth
  | couldNotMovePointer
  | keyboardIoctlFailed
  | metadataFailed
  | modeFailed
  | couldNotAllocateFrame
  | couldNotMapFramebuffer
  | clutHashFailed
  | clutChunkFailed
  | unsupportedColourDepth
deriving Repr, DecidableEq

end MiniVnc
