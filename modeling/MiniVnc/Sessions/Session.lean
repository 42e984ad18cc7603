import MiniVnc.Sessions.Server
import MiniVnc.Updates.Framing

/-! `handle_session`: the set-up of a session, what it passes off as a handshake, its messages and
the clean-up at its end.
-/

namespace MiniVnc
open Library.Memory Library.Stream

/-- The receiving side of the client socket: the bytes the client still sends, what limits the n-th
`recv`, `none` when it fails, and how often `recv` has been called.
-/
structure Incoming where
  stream : List UInt8
  counts : Nat → Option Nat
  recvs : Nat

/-- `VNCServerInit` -/
structure VNCServerInit where
  fbWidth : UInt16
  fbHeight : UInt16
  format : VNCPixelFormat
  nameLength : UInt32
  name : Mem

/-- `VNC_SERVER_INIT_NAME_LEN` -/
def vncServerInitNameLen : Nat := 10

def VNCServerInit.bytes (init : VNCServerInit) : List UInt8 :=
  ushortBytes init.fbWidth ++ ushortBytes init.fbHeight ++ init.format.bytes
    ++ ulongBytes init.nameLength ++ slice init.name 0 vncServerInitNameLen

/-- What memory that nobody has written yet holds: the local of `vnc_sendServerInit`, the frame that
`malloc` gives, the buffers of `kchr_load`, and the `xend` of each row of each update.
-/
structure Garbage where
  serverInit : VNCServerInit
  frame : Mem
  kchr : Mem
  chunk : Mem
  xend : Nat → Nat → Int

/-- What a session gets from outside: whether `/dev/fb0` can be opened, what `fb_init` gets from the
driver, whether it gets memory and a mapping, the screen it announces, the layout, the host's name,
what the socket does with what is sent, what it receives, and what the message handlers get.
-/
structure Outside where
  opens : Bool
  init : Driver
  mallocs : Bool
  maps : Bool
  announced : Driver
  kchrChunks : Nat → Option Mem
  hostname : Option (List UInt8)
  sends : Nat → Nat → Option Nat
  stream : List UInt8
  counts : Nat → Option Nat
  drivers : Drivers
  mode : Nat → Option KeyMode
  accepts : Nat → UInt8 → Bool

/-- `session`. `allocated` tells whether `fb.frame_to_send` is not null. -/
structure Sess where
  sock : Int
  fbFd : Int
  allocated : Bool
  incoming : Incoming
  parser : Parser.Session Server

abbrev Running (α : Type) := EStateM Parser.Stop Sess α

/-- "Zero our memory" -/
def Sess.zeroed (outside : Outside) : Sess where
  sock := 0
  fbFd := 0
  allocated := false
  incoming := ⟨outside.stream, outside.counts, 0⟩
  parser :=
    .fresh
      { updates :=
          { sock := ⟨outside.sends, 0, [], []⟩
            videoInfo := ⟨0, 0, zero_fits, zero_fits⟩
            fb :=
              { vp := ⟨0, 0⟩, vi := ⟨0, 0, zero_fits, zero_fits⟩, frameToSend := fun _ => 0,
                frameSize := 0, lastChanged := false, lastDirty := ⟨0, 0, 0, 0⟩,
                dirtyCursor := ⟨0, 0, 0⟩, clutChanged := false, clutHash := 0,
                clut := fun _ => 0, vncClut := fun _ => ⟨0, 0, 0⟩ } }
        keys := ⟨⟨outside.mode, 0, outside.accepts, []⟩, .zeroed⟩
        asked := 0
        moved := 0 }

/-- The handlers' part of the session. -/
def onServer {α : Type} (action : EStateM SessionError Server α) : Running α := fun s =>
  match action s.parser.handlers with
  | .ok value handlers => .ok value { s with parser := { s.parser with handlers } }
  | .error e handlers =>
      .error (.sessionEnded e) { s with parser := { s.parser with handlers } }

/-- The parser's part of the session. -/
def onParser {α : Type} (action : EStateM Parser.Stop (Parser.Session Server) α) : Running α :=
  fun s =>
    match action s.parser with
    | .ok value parser => .ok value { s with parser }
    | .error e parser => .error e { s with parser }

-----------------------------------------------------------------------------------------
-- Set-up
-----------------------------------------------------------------------------------------

/-- Whether `fb_init` got memory for the frame: after that it only ends for want of a mapping. -/
def allocates {σ : Type} : EStateM.Result SessionError σ Unit → Bool
  | .ok _ _ => true
  | .error .couldNotMapFramebuffer _ => true
  | .error _ _ => false

/-- `fb_init(&sess, &sess.fb)` -/
def initFrameBuffer (outside : Outside) (garbage : Garbage) : Running Unit := do
  let init := fbInit outside.init (if outside.mallocs then some garbage.frame else none)
    outside.maps
  modify fun s => { s with allocated := allocates (init s.parser.handlers.updates.fb) }
  onServer (onUpdates (onFrameBuffer init))

/-- `kchr_load(sess.fb_fd, &sess.kchr)` -/
def loadKchr (outside : Outside) (garbage : Garbage) : Running Unit :=
  onServer (onKeys (modify fun s =>
    { s with kchr := kchrLoad outside.kchrChunks garbage.kchr garbage.chunk s.kchr }))

-----------------------------------------------------------------------------------------
-- "our protocol handshake, or what we pass off as one"
-----------------------------------------------------------------------------------------

/-- What `recv` of at most `len` bytes gives: something, unless the client sends no more. -/
def Incoming.recv (incoming : Incoming) (len : Nat) : Parser.RecvResult × Incoming :=
  match incoming.counts incoming.recvs with
  | none => (.failed, { incoming with recvs := incoming.recvs + 1 })
  | some count =>
      let taken := min len (max 1 count)
      (.data (incoming.stream.take taken),
        { incoming with
          stream := incoming.stream.drop taken
          recvs := incoming.recvs + 1 })

/-- `recvw` into a buffer that nobody looks at. -/
def recvw (len : Nat) : Running Unit := do
  let s ← get
  let (received, incoming) := s.incoming.recv len
  set { s with incoming }
  match received with
  | .failed => throw (.sessionEnded .recvFailed)
  | .data [] => throw (.sessionEnded .eofOnSocket)
  | .data _ => pure ()

/-- `"RFB 003.003\n"` -/
def versionBytes : List UInt8 := [82, 70, 66, 32, 48, 48, 51, 46, 48, 48, 51, 10]

def vncSendProtocolVersion : Running Unit := onServer (onUpdates (sendw versionBytes))

def vncRequestClientProtocolVersion : Running Unit := recvw 12

def vncSendSecurityHandshake : Running Unit := onServer (onUpdates (sendw (ulongBytes 1)))

def vncRequestClientInit : Running Unit := recvw 1

/-- `gethostname` into `name`, which has room for ten bytes: a longer name is cut off, a shorter one
ends with a zero byte.
-/
def gethostname (hostname : Option (List UInt8)) (name : Mem) : Mem :=
  match hostname with
  | some hostname => copyIn name 0 ((hostname ++ [0]).take vncServerInitNameLen)
  | none => name

/-- "pad it with spaces": from the first zero byte on. -/
def padName (name : Mem) : Mem := fun k =>
  if ∃ i ≤ k, name i = 0 then 0x20 else name k

/-- `vncServerInit` as it is sent; its other fields are as they were. -/
def serverInit (outside : Outside) (garbage : Garbage) (videoInfo : Video) : VNCServerInit :=
  { garbage.serverInit with
    fbWidth := UInt16.ofNat videoInfo.videoScrX
    fbHeight := UInt16.ofNat videoInfo.videoScrY
    format :=
      { garbage.serverInit.format with
        bigEndian := 1
        bitsPerPixel := 8
        depth := 8
        trueColour := 0 }
    nameLength := UInt32.ofNat vncServerInitNameLen
    name := padName (gethostname outside.hostname garbage.serverInit.name) }

def vncSendServerInit (outside : Outside) (garbage : Garbage) : Running Unit :=
  onServer (onUpdates do
    let s ← get
    sendw (serverInit outside garbage s.videoInfo).bytes)

/-- The handshake up to the client's part of it. -/
def greet : Running Unit := do
  vncSendProtocolVersion
  vncRequestClientProtocolVersion
  vncSendSecurityHandshake
  vncRequestClientInit

def handshake (outside : Outside) (garbage : Garbage) : Running Unit := do
  greet
  vncSendServerInit outside garbage

-----------------------------------------------------------------------------------------
-- Messages
-----------------------------------------------------------------------------------------

/-- The stack garbage in `fb_update`. -/
def Drivers.withGarbage (drivers : Drivers) (garbage : Garbage) : Drivers where
  update := fun n => { drivers.update n with uninitialised := garbage.xend n }
  moves := drivers.moves

def vncReadAndHandleMessages (drivers : Drivers) : Running Unit := do
  let s ← get
  let (received, incoming) := s.incoming.recv Parser.sessRecvBuffLen
  set { s with incoming }
  onParser (Parser.vncReadAndHandleMessages (serverHandler drivers) received)

/-- `while(1)`, with at most `fuel` iterations. -/
def messageLoop (drivers : Drivers) : Nat → Running Unit
  | 0 => throw .spins
  | fuel + 1 => do
      vncReadAndHandleMessages drivers
      messageLoop drivers fuel

/-- The session from the jump point on. Every iteration of its loop takes a byte from the client. -/
def runSession (outside : Outside) (garbage : Garbage) : Running Unit := do
  initFrameBuffer outside garbage
  onServer (onUpdates (sessionSetupVideoInfo outside.announced))
  loadKchr outside garbage
  handshake outside garbage
  messageLoop (outside.drivers.withGarbage garbage) (outside.stream.length + 1)

-----------------------------------------------------------------------------------------
-- Clean-up
-----------------------------------------------------------------------------------------

/-- What the clean-up gives back; freeing a null pointer gives nothing back. -/
inductive Release where
  | frame
  | descriptor (fd : Int)
deriving Repr, DecidableEq

def cleanup (s : Sess) : List Release :=
  (if s.allocated then [.frame] else []) ++ [.descriptor s.sock, .descriptor s.fbFd]

/-- How a session ended: the state at its clean-up, and what that gave back. -/
structure Ended where
  sess : Sess
  released : List Release

/-- `handle_session` on the client socket `sock`, where `fd` is the descriptor that `open` gives, if
it does.
-/
def handleSession (outside : Outside) (garbage : Garbage) (sock fd : Nat) : Ended :=
  let s := Sess.zeroed outside
  let last :=
    if outside.opens then
      endState (runSession outside garbage { s with fbFd := fd, sock := sock })
    else
      { s with fbFd := -1 }
  ⟨last, cleanup last⟩

/-- The session on the client socket once `/dev/fb0` is open. -/
def Sess.opened (outside : Outside) (sock fd : Nat) : Sess :=
  { Sess.zeroed outside with fbFd := fd, sock := sock }

theorem handleSession_of_opens {outside : Outside} (opens : outside.opens = true)
    (garbage : Garbage) (sock fd : Nat)
    : (handleSession outside garbage sock fd).sess
      = endState (runSession outside garbage (.opened outside sock fd)) :=
  if_pos opens

theorem handleSession_of_fails {outside : Outside} (fails : ¬outside.opens = true)
    (garbage : Garbage) (sock fd : Nat)
    : (handleSession outside garbage sock fd).sess = { Sess.zeroed outside with fbFd := -1 } :=
  if_neg fails

/-- Outside of a session on the small screen in which every call succeeds. -/
def smallOutside (stream : List UInt8) (counts : Nat → Option Nat) : Outside where
  opens := true
  init := smallDriver (fun _ => 7) 5
  mallocs := true
  maps := true
  announced := smallDriver (fun _ => 7) 5
  kchrChunks := fun _ => some fun _ => 0
  hostname := some [109, 97, 99]
  sends := fun _ length => some length
  stream := stream
  counts := counts
  drivers := ⟨fun _ => smallDriver (fun _ => 7) 5, fun _ => true⟩
  mode := fun _ => some .araw
  accepts := fun _ _ => true

/-- Memory that happens to hold `byte` in the maxima of the local pixel format, and zeros elsewhere.
-/
def zeroGarbage (byte : UInt16) : Garbage where
  serverInit := ⟨0, 0, ⟨0, 0, 0, 0, byte, byte, byte, 0, 0, 0, ⟨0, 0, 0⟩⟩, 0, fun _ => 0⟩
  frame := fun _ => 0
  kchr := fun _ => 0
  chunk := fun _ => 0
  xend := fun _ _ => 0

end MiniVnc
