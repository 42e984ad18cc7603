import MiniVnc.FrameBuffer.Rows
import MiniVnc.Library.Stream
import MiniVnc.Messages
import MiniVnc.SessionError

/-! `frame_buffer.c`: the 8-bit frame that is sent to the client, brought up to date from the
hardware framebuffer, with the palette and the rectangle that has changed.
-/

namespace MiniVnc
open Library.Memory Library.Loop

/-- The fields of `struct video` that the server uses. -/
structure Video where
  videoScrX : Nat
  videoScrY : Nat
  xFits : videoScrX < 2 ^ 31
  yFits : videoScrY < 2 ^ 31
deriving Repr, DecidableEq

/-- A cleared record has a size that fits. -/
theorem zero_fits : 0 < 2 ^ 31 := by
  decide

/-- The fields of `VPBlock` that the server uses. -/
structure VPBlock where
  vpPixelSize : Nat
  vpRowBytes : Nat
deriving Repr, DecidableEq

/-- What an update gets from outside: the answers to its ioctls on `/dev/fb0`, with `none` for
one that fails; the memory mapped at `physed_fb`; and the stack garbage `xend` starts with in
each row.
-/
structure Driver where
  metadata : Option Video
  mode : Option VPBlock
  clutHash : Option UInt32
  clutChunk : Nat → Option Mem
  screen : Mem
  uninitialised : Nat → Int

/-- An fb_rect is determined by its corners, not by an x/y/width/height. -/
structure FbRect where
  x1 : Int
  x2 : Int
  y1 : Int
  y2 : Int
deriving Repr, DecidableEq

/-- `FB_RECT_WIDTH` -/
def FbRect.width (r : FbRect) : Int := r.x2 + 1 - r.x1

/-- `FB_RECT_HEIGHT` -/
def FbRect.height (r : FbRect) : Int := r.y2 + 1 - r.y1

/-- An fb_cursor is a point in a framebuffer where we want to read from. -/
structure FbCursor where
  offset : Int
  nextRowOffset : Int
  numberOfIncrements : Int
deriving Repr, DecidableEq

/-- `frame_buffer`; the `int` flags are truth values. -/
structure FrameBuffer where
  vp : VPBlock
  vi : Video
  frameToSend : Mem
  frameSize : Nat
  lastChanged : Bool
  lastDirty : FbRect
  dirtyCursor : FbCursor
  clutChanged : Bool
  clutHash : UInt32
  clut : Mem
  vncClut : Nat → VNCColour

/-- An ioctl that gives `answer`, or ends the session with `error`. -/
def ioctl {σ α : Type} (answer : Option α) (error : SessionError) : EStateM SessionError σ α :=
  match answer with
  | some value => pure value
  | none => throw error

def fbGetVideoInfo (driver : Driver) : EStateM SessionError FrameBuffer Unit := do
  let vi ← ioctl driver.metadata .metadataFailed
  modify fun fb => { fb with vi }
  let vp ← ioctl driver.mode .modeFailed
  modify fun fb => { fb with vp }

/-- `fb_init` on the zeroed frame buffer: `malloced` is the fresh `frame_to_send`, and `mapped`
tells whether `FB_PHYS` succeeds. The frame size is an `int` product in the source.
-/
def fbInit (driver : Driver) (malloced : Option Mem) (mapped : Bool)
    : EStateM SessionError FrameBuffer Unit := do
  set ({ vp := ⟨0, 0⟩, vi := ⟨0, 0, zero_fits, zero_fits⟩, frameToSend := fun _ => 0,
         frameSize := 0, lastChanged := false, lastDirty := ⟨0, 0, 0, 0⟩,
         dirtyCursor := ⟨0, 0, 0⟩, clutChanged := false, clutHash := 0, clut := fun _ => 0,
         vncClut := fun _ => ⟨0, 0, 0⟩ } : FrameBuffer)
  fbGetVideoInfo driver
  modify fun fb => { fb with frameSize := fb.vi.videoScrX * fb.vi.videoScrY }
  let frameToSend ← ioctl malloced .couldNotAllocateFrame
  modify fun fb => { fb with frameToSend }
  if mapped then pure () else throw .couldNotMapFramebuffer

-----------------------------------------------------------------------------------------
-- The palette
-----------------------------------------------------------------------------------------

/-- The colour of the `ColorSpec` at entry `i` of a table of them: eight bytes each, the RGB
triple behind a two-byte `value`.
-/
def colourAt (clut : Mem) (i : Nat) : VNCColour :=
  ⟨ushortAt clut (8 * i + 2), ushortAt clut (8 * i + 4), ushortAt clut (8 * i + 6)⟩

/-- The first `count` of the 32 chunks of eight entries. -/
def copyClutChunks (driver : Driver) : Nat → EStateM SessionError FrameBuffer Unit
  | 0 => pure ()
  | i + 1 => do
      copyClutChunks driver i
      let chunk ← ioctl (driver.clutChunk i) .clutChunkFailed
      modify fun fb => { fb with clut := copyIn fb.clut (i * 64) (slice chunk 0 64) }

/-- `fb_update_clut` once the palette is known to have changed. -/
def fetchClut (driver : Driver) : EStateM SessionError FrameBuffer Unit := do
  copyClutChunks driver 32
  modify fun fb =>
    { fb with vncClut := fun i => if i < 256 then colourAt fb.clut i else fb.vncClut i }

def fbUpdateClut (driver : Driver) : EStateM SessionError FrameBuffer Unit := do
  let hash ← ioctl driver.clutHash .clutHashFailed
  modify fun fb =>
    if fb.clutHash ≠ hash then { fb with clutHash := hash, clutChanged := true } else fb
  let fb ← get
  if fb.clutChanged then
    fetchClut driver
  else
    pure ()

-----------------------------------------------------------------------------------------
-- Copying the screen
-----------------------------------------------------------------------------------------

/-- The value an `int` has as an `unsigned int`. -/
def toUnsigned (value : Int) : Nat := (value % 2 ^ 32).toNat

/-- The value an `unsigned int` has as an `int`. -/
def toSigned (value : Nat) : Int := if value < 2 ^ 31 then value else value - 2 ^ 32

/-- The frame and the locals of `fb_update` that its row loop works on. -/
structure Scan where
  frame : Mem
  changed : Bool
  lowYChange : Nat
  highYChange : Nat
  lowXChange : Nat
  highXChange : Nat

def Scan.start (frame : Mem) : Scan where
  frame := frame
  changed := false
  lowYChange := 0xFFFFFFFF
  highYChange := 0
  lowXChange := 0xFFFFFFFF
  highXChange := 0

/-- "has anything changed on this line? If so, expand the dirty rectangle to fit it" -/
def Scan.line (scan : Scan) (i : Nat) (row : RowCopy) : Scan where
  frame := row.frame
  changed := scan.changed || row.changed
  lowYChange := if row.changed ∧ i < scan.lowYChange then i else scan.lowYChange
  highYChange := if row.changed ∧ scan.highYChange < i then i else scan.highYChange
  lowXChange :=
    if row.changed ∧ toUnsigned row.xstart < scan.lowXChange then toUnsigned row.xstart
    else scan.lowXChange
  highXChange :=
    if row.changed ∧ scan.highXChange < toUnsigned row.xend then toUnsigned row.xend
    else scan.highXChange

/-- The first `count` iterations of the row loop. -/
def scanRows (driver : Driver) (fb : FrameBuffer) : Nat → Except SessionError Scan
  | 0 => .ok (.start fb.frameToSend)
  | i + 1 => do
      let scan ← scanRows driver fb i
      match copyRow? fb.vp.vpPixelSize with
      | some copy =>
          .ok (scan.line i (copy scan.frame driver.screen (i * fb.vi.videoScrX)
            (i * fb.vp.vpRowBytes) fb.vi.videoScrX (driver.uninitialised i)))
      | none => .error .unsupportedColourDepth

/-- `fb_update` from "Copy screen memory into the bitmap to send" on. -/
def copyScreen (driver : Driver) : EStateM SessionError FrameBuffer Unit := do
  let fb ← get
  match scanRows driver fb fb.vi.videoScrY with
  | .error e => throw e
  | .ok scan =>
      set
        { fb with
          frameToSend := scan.frame
          lastChanged := scan.changed
          lastDirty :=
            if scan.changed then
              { x1 := toSigned scan.lowXChange
                x2 := toSigned scan.highXChange
                y1 := toSigned scan.lowYChange
                y2 := toSigned scan.highYChange }
            else
              ⟨0, 0, 0, 0⟩ }

def fbUpdate (driver : Driver) : EStateM SessionError FrameBuffer Unit := do
  fbGetVideoInfo driver
  fbUpdateClut driver
  copyScreen driver

def fbResetDirtyCursor (fb : FrameBuffer) : FrameBuffer :=
  { fb with
    dirtyCursor :=
      { nextRowOffset := fb.vi.videoScrX
        offset := fb.lastDirty.y1 * fb.vi.videoScrX + fb.lastDirty.x1
        numberOfIncrements := 0 } }

def fbAdvanceDirtyCursor (fb : FrameBuffer) : FrameBuffer :=
  { fb with
    dirtyCursor :=
      { fb.dirtyCursor with
        offset := fb.dirtyCursor.offset + fb.dirtyCursor.nextRowOffset
        numberOfIncrements := fb.dirtyCursor.numberOfIncrements + 1 } }

def fbSizeAtDirtyCursor (fb : FrameBuffer) : Int := fb.lastDirty.width

def fbMoreDirty (fb : FrameBuffer) : Bool :=
  fb.dirtyCursor.numberOfIncrements < fb.lastDirty.height

/-- The offset in `frame_to_send` that `fb_dirty_cursor_ptr` points to. -/
def fbDirtyCursorPtr (fb : FrameBuffer) : Int := fb.dirtyCursor.offset

end MiniVnc
