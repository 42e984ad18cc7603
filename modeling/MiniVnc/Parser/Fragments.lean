import MiniVnc.Library.Stream
import MiniVnc.Messages
import MiniVnc.SessionError

/-! The message phase of `session.c`: `vnc_handleMessageFragments` with its in-place fast
path, its byte-copying slow path and the SetEncodings fragments.
-/

namespace MiniVnc.Parser
open Library.Memory

/-- A call of one of the message handlers, with the message it is handed. The call
`vnc_evt_encoding_fragment(sess, bytesRead)` is `setEncoding` for the four-byte head and
`setEncodingOne` for the eight bytes that carry one encoding.
-/
inductive Event where
  | setPixelFormat (evt : VNCSetPixFormat)
  | setEncoding (evt : VNCSetEncoding)
  | setEncodingOne (evt : VNCSetEncodingOne)
  | updateRequest (evt : VNCFBUpdateReq)
  | key (evt : VNCKeyEvent)
  | pointer (evt : VNCPointerEvent)
  | clientCutText (evt : VNCClientCutText)
deriving Repr, DecidableEq

/-- What the handlers do with a call, on their own state `σ`. They return or end the session;
the byte they return is what they leave in `evt->incremental`, which only
`vnc_evt_update_request` writes.
-/
abbrev Handler (σ : Type) := Event → EStateM SessionError σ UInt8

/-- `vnc_evt_set_pixel_format` accepts the colour-mapped formats of depth 8. -/
def vncEvtSetPixelFormat {σ : Type} (evt : VNCSetPixFormat) : EStateM SessionError σ Unit :=
  if evt.format.trueColour ≠ 0 ∨ evt.format.depth ≠ 8 then
    throw .invalidColourDepth
  else
    pure ()

/-- Handlers that observe the messages they get: whatever they do with their state, they
return, except for the check of the pixel format.
-/
def observing {σ : Type} (react : Event → σ → UInt8 × σ) : Handler σ
  | .setPixelFormat evt => do
      vncEvtSetPixelFormat evt
      fun s => .ok (react (.setPixelFormat evt) s).1 (react (.setPixelFormat evt) s).2
  | event => fun s => .ok (react event s).1 (react event s).2

/-- Why a call of the parser does not return: the session ended, or `while(len)` spins. -/
inductive Stop where
  | sessionEnded (error : SessionError)
  | spins
deriving Repr, DecidableEq

/-- The part of `session` the parser works on. `calls` records the handler calls made. -/
structure Session (σ : Type) where
  recvBuf : Mem
  messageInProgress : Mem
  msgDst : Nat
  calls : List Event
  handlers : σ

/-- The state `handle_session` starts the message phase in. -/
def Session.fresh {σ : Type} (handlers : σ) : Session σ where
  recvBuf := fun _ => 0
  messageInProgress := fun _ => 0
  msgDst := 0
  calls := []
  handlers := handlers

variable {σ : Type}

def callHandler (handle : Handler σ) (event : Event) : EStateM Stop (Session σ) UInt8 :=
  fun s =>
    match handle event s.handlers with
    | .ok left after => .ok left { s with calls := s.calls ++ [event], handlers := after }
    | .error e after =>
        .error (.sessionEnded e) { s with calls := s.calls ++ [event], handlers := after }

/-- The fast path, handling whole messages where they lie in `recv_buf`. It returns `src` and
`len`. `fuel` bounds the iterations.
-/
def fastPath (handle : Handler σ) : Nat → Nat → Nat → EStateM Stop (Session σ) (Nat × Nat)
  | 0, _, _ => throw .spins
  | fuel + 1, src, len => do
      let s ← get
      if s.recvBuf src = ClientMessageType.mPointerEvent.code
          ∧ ClientMessageType.mPointerEvent.sizeof ≤ len then
        let _ ← callHandler handle (.pointer (.at s.recvBuf src))
        fastPath handle fuel (src + ClientMessageType.mPointerEvent.sizeof)
          (len - ClientMessageType.mPointerEvent.sizeof)
      else if s.recvBuf src = ClientMessageType.mFBUpdateRequest.code
          ∧ ClientMessageType.mFBUpdateRequest.sizeof ≤ len then
        let incremental ← callHandler handle (.updateRequest (.at s.recvBuf src))
        modify fun s => { s with recvBuf := write s.recvBuf (src + 1) 1 incremental.toNat }
        fastPath handle fuel (src + ClientMessageType.mFBUpdateRequest.sizeof)
          (len - ClientMessageType.mFBUpdateRequest.sizeof)
      else
        return (src, len)

-----------------------------------------------------------------------------------------
-- Fragmented messages
-----------------------------------------------------------------------------------------

/-- `setEncoding.numberOfEncodings` of the message in progress. -/
def numberOfEncodings (messageInProgress : Mem) : UInt16 := ushortAt messageInProgress 2

def vncMsgEncodingfragsize (messageInProgress : Mem) (bytesRead : Nat) : Nat :=
  if ClientMessageType.mSetEncodings.sizeof ≤ bytesRead
      ∧ numberOfEncodings messageInProgress ≠ 0 then
    sizeofVNCSetEncodingOne
  else
    ClientMessageType.mSetEncodings.sizeof

/-- The `switch` that finds the message length; `none` is its `default` case. -/
def msgSize? (messageInProgress : Mem) (bytesRead : Nat) : Option Nat :=
  match ClientMessageType.ofCode? (messageInProgress 0) with
  | some .mSetEncodings => some (vncMsgEncodingfragsize messageInProgress bytesRead)
  | some type => some type.sizeof
  | none => none

/-- The message in progress after a fragment: an encoding takes one off the count. -/
def countDown (messageInProgress : Mem) (bytesRead : Nat) : Mem :=
  if bytesRead = sizeofVNCSetEncodingOne then
    write messageInProgress 2 2 (numberOfEncodings messageInProgress - 1).toNat
  else
    messageInProgress

/-- Where the next bytes go after a fragment: to the encoding field while encodings are due,
else to the start of the next message.
-/
def nextFragment (messageInProgress : Mem) : Nat :=
  if numberOfEncodings messageInProgress ≠ 0 then 4 else 0

/-- The handler call a complete message of `type` is dispatched to. -/
def eventOf (type : ClientMessageType) (messageInProgress : Mem) (bytesRead : Nat) : Event :=
  match type with
  | .mSetPixelFormat => .setPixelFormat (.at messageInProgress 0)
  | .mFBUpdateRequest => .updateRequest (.at messageInProgress 0)
  | .mKeyEvent => .key (.at messageInProgress 0)
  | .mPointerEvent => .pointer (.at messageInProgress 0)
  | .mClientCutText => .clientCutText (.at messageInProgress 0)
  | .mSetEncodings =>
      if bytesRead = sizeofVNCSetEncodingOne then
        .setEncodingOne (.at messageInProgress 0)
      else
        .setEncoding (.at messageInProgress 0)

/-- The dispatch `switch`, up to the point where the next message can be received. -/
def dispatch (handle : Handler σ) (type : ClientMessageType)
    : EStateM Stop (Session σ) Unit := do
  let s ← get
  let left ← callHandler handle (eventOf type s.messageInProgress s.msgDst)
  match type with
  | .mSetEncodings => -- the rest of vnc_evt_encoding_fragment
      modify fun s =>
        let messageInProgress := countDown s.messageInProgress s.msgDst
        { s with messageInProgress, msgDst := nextFragment messageInProgress }
  | .mFBUpdateRequest =>
      modify fun s =>
        { s with
          messageInProgress := write s.messageInProgress 1 1 left.toNat
          msgDst := 0 }
  | _ => modify fun s => { s with msgDst := 0 }

/-- "If we've read no bytes yet, get the message type". -/
def readType (s : Session σ) (src len : Nat) : Session σ × Nat × Nat :=
  if s.msgDst = 0 then
    ({ s with
        messageInProgress := copyIn s.messageInProgress 0 [s.recvBuf src]
        msgDst := s.msgDst + 1 },
      src + 1, len - 1)
  else
    (s, src, len)

/-- "Copy message bytes", at most up to the end of the message and of the received data. -/
def copyMessageBytes (s : Session σ) (src len msgSize : Nat) : Session σ × Nat × Nat :=
  if s.msgDst < msgSize then
    let bytesToCopy := min (msgSize - s.msgDst) len
    ({ s with
        messageInProgress :=
          copyIn s.messageInProgress s.msgDst (slice s.recvBuf src bytesToCopy)
        msgDst := s.msgDst + bytesToCopy },
      src + bytesToCopy, len - bytesToCopy)
  else
    (s, src, len)

/-- The part of an iteration that follows once the message length is known. -/
def copyAndDispatch (handle : Handler σ) (type : ClientMessageType) (msgSize src len : Nat)
    : EStateM Stop (Session σ) (Nat × Nat) := do
  let (s, src, len) := copyMessageBytes (← get) src len msgSize
  set s
  if s.msgDst = msgSize then
    dispatch handle type
    return (src, len)
  else
    return (src, len)

/-- One iteration of `while(len)`, returning `src` and `len`. -/
def slowIteration (handle : Handler σ) (src len : Nat)
    : EStateM Stop (Session σ) (Nat × Nat) := do
  let (s, src, len) := readType (← get) src len
  set s
  match ClientMessageType.ofCode? (s.messageInProgress 0),
    msgSize? s.messageInProgress s.msgDst with
  | some type, some msgSize => copyAndDispatch handle type msgSize src len
  | _, _ => throw (.sessionEnded .illegalMessage)

/-- `while(len)`, with at most `fuel` iterations. -/
def slowPath (handle : Handler σ) : Nat → Nat → Nat → EStateM Stop (Session σ) Unit
  | _, _, 0 => pure ()
  | 0, _, _ + 1 => throw .spins
  | fuel + 1, src, len + 1 => do
      let (src, len) ← slowIteration handle src (len + 1)
      slowPath handle fuel src len

/-- Each iteration of either loop consumes a byte, so `len` bounds them; the fast path looks
at the message type once more when it stops.
-/
def vncHandleMessageFragments (handle : Handler σ) (len : Nat)
    : EStateM Stop (Session σ) Unit := do
  let s ← get
  if s.msgDst = 0 then
    let rest ← fastPath handle (len + 1) 0 len
    slowPath handle len rest.1 rest.2
  else
    slowPath handle len 0 len

/-- `SESS_RECV_BUFF_LEN`. -/
def sessRecvBuffLen : Nat := 256

/-- What one `recv` on the client socket gives. -/
inductive RecvResult where
  | failed
  | data (bytes : List UInt8)
deriving Repr, DecidableEq

/-- `recvw` into `recv_buf`, returning the number of bytes received. -/
def recvw : RecvResult → EStateM Stop (Session σ) Nat
  | .failed => throw (.sessionEnded .recvFailed)
  | .data [] => throw (.sessionEnded .eofOnSocket)
  | .data bytes => do
      modify fun s => { s with recvBuf := copyIn s.recvBuf 0 bytes }
      return bytes.length

def vncReadAndHandleMessages (handle : Handler σ) (received : RecvResult)
    : EStateM Stop (Session σ) Unit := do
  let len ← recvw received
  vncHandleMessageFragments handle len

/-- A `recv` of at most `SESS_RECV_BUFF_LEN` bytes that was not the end of the stream. -/
def IsPiece (bytes : List UInt8) : Prop := 1 ≤ bytes.length ∧ bytes.length ≤ sessRecvBuffLen

instance (bytes : List UInt8) : Decidable (IsPiece bytes) :=
  inferInstanceAs (Decidable (_ ∧ _))

/-- The message phase over the pieces in which the client's stream is received. -/
def feed (handle : Handler σ) (pieces : List (List UInt8))
    : EStateM Stop (Session σ) Unit :=
  Library.Stream.run (fun piece => vncReadAndHandleMessages handle (.data piece)) pieces

/-- The parser states a fresh session can get to. -/
def Reachable (handle : Handler σ) (s : Session σ) : Prop :=
  ∃ handlers pieces,
    (∀ piece ∈ pieces, IsPiece piece) ∧ feed handle pieces (.fresh handlers) = .ok () s

end MiniVnc.Parser
