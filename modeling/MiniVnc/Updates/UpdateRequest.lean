import MiniVnc.FrameBuffer.Palette

/-! `vnc_evt_update_request` and what it sends. -/

namespace MiniVnc
open Library.Memory Library.Loop Library.Stream

/-- The client socket. `results` tells for the n-th `send`, with the length it is given, how
many bytes it accepts, or `none` when it fails. `offered` keeps everything given to `send`
so far, `sent` the part of it that was accepted.
-/
structure Socket where
  results : Nat → Nat → Option Nat
  sends : Nat
  offered : List UInt8
  sent : List UInt8

/-- The part of `session` that update requests work on. -/
structure UpdateSession where
  sock : Socket
  videoInfo : Video
  fb : FrameBuffer

abbrev Update (α : Type) := EStateM SessionError UpdateSession α

/-- `sendw` ends the session on an error. It does not look at how much was accepted. -/
def sendw (msg : List UInt8) : Update Unit := fun s =>
  match s.sock.results s.sock.sends msg.length with
  | none => .error .sendFailed { s with sock := { s.sock with sends := s.sock.sends + 1 } }
  | some accepted =>
      .ok ()
        { s with
          sock :=
            { s.sock with
              sends := s.sock.sends + 1
              offered := s.sock.offered ++ msg
              sent := s.sock.sent ++ msg.take accepted } }

/-- The frame buffer functions work on `sess->fb`. -/
def onFrameBuffer (action : EStateM SessionError FrameBuffer Unit) : Update Unit := fun s =>
  match action s.fb with
  | .ok value fb => .ok value { s with fb }
  | .error e fb => .error e { s with fb }

def sessionSetupVideoInfo (driver : Driver) : Update Unit := do
  let videoInfo ← ioctl driver.metadata .metadataFailed
  modify fun s => { s with videoInfo }

def colourMapHeader : VNCSetColourMapHeader where
  message := ServerMessageType.mSetCMapEntries.code
  padding := 0
  firstColour := 0
  numColours := 256

/-- Send the colourmap of the associated framebuffer out to the VNC connection. -/
def vncUpdSendColourmap : Update Unit := do
  let s ← get
  if s.fb.clutChanged then
    sendw colourMapHeader.bytes
    sendw ((List.range 256).flatMap fun i => (s.fb.vncClut i).bytes)
    modify fun s => { s with fb := { s.fb with clutChanged := false } }
  else
    pure ()

/-- The header of an update with one raw rectangle. -/
def updateHeader (rect : VNCRect) : VNCFBUpdate where
  message := ServerMessageType.mFBUpdate.code
  padding := 0
  numRects := 1
  rect := rect
  encodingType := mRawEncoding

/-- The rectangle of the whole screen as the header holds it. -/
def fullScreen (videoInfo : Video) : VNCRect where
  x := 0
  y := 0
  w := UInt16.ofNat videoInfo.videoScrX
  h := UInt16.ofNat videoInfo.videoScrY

/-- The dirty rectangle as the header holds it. -/
def dirtyScreen (dirty : FbRect) : VNCRect where
  x := UInt16.ofInt dirty.x1
  y := UInt16.ofInt dirty.y1
  w := UInt16.ofInt dirty.width
  h := UInt16.ofInt dirty.height

/-- "if more than a quarter of the screen has changed" -/
def mostlyDirty (rect : VNCRect) (dirty : FbRect) : Bool :=
  dirty.height > (rect.h.toNat / 2 : Nat) ∧ dirty.width > (rect.w.toNat / 2 : Nat)

/-- The result is what is left in `*incremental`. -/
def vncUpdSendHdrRaw (incremental : UInt8) : Update UInt8 := do
  let s ← get
  let rect := fullScreen s.videoInfo
  let incremental := if s.fb.clutChanged then 0 else incremental
  let incremental := if mostlyDirty rect s.fb.lastDirty then 0 else incremental
  let rect := if incremental ≠ 0 then dirtyScreen s.fb.lastDirty else rect
  sendw (updateHeader rect).bytes
  return incremental

/-- The loop over the rows of the dirty rectangle, for at most `fuel` rows. -/
def sendDirtyRows : Nat → Update Unit
  | 0 => pure ()
  | fuel + 1 => do
      let s ← get
      if fbMoreDirty s.fb then
        sendw (slice s.fb.frameToSend (fbDirtyCursorPtr s.fb).toNat
          (fbSizeAtDirtyCursor s.fb).toNat)
        modify fun s => { s with fb := fbAdvanceDirtyCursor s.fb }
        sendDirtyRows fuel
      else
        pure ()

def vncSendBodyRaw (incremental : UInt8) : Update Unit := do
  let s ← get
  if incremental = 0 then
    sendw (slice s.fb.frameToSend 0 s.fb.frameSize)
  else
    modify fun s => { s with fb := fbResetDirtyCursor s.fb }
    sendDirtyRows s.fb.lastDirty.height.toNat

/-- The result is what is left in `evt->incremental`. -/
def vncEvtUpdateRequest (driver : Driver) (incremental : UInt8) : Update UInt8 := do
  onFrameBuffer (fbUpdate driver)
  vncUpdSendColourmap
  let incremental ← vncUpdSendHdrRaw incremental
  vncSendBodyRaw incremental
  return incremental

end MiniVnc
