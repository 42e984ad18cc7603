import Mathlib.Data.Int.Basic
import MiniVnc.Kernel.KeyMap
import MiniVnc.Kernel.Crc32
import MiniVnc.Library.Stream

/-! `fb.c`: the entry points of the kernel driver that read the mode tables, the palette and the key
map, with a log of what they use.
-/

namespace MiniVnc.Kernel
open Library.Memory Library.Stream

/-- `EINVAL` -/
def einval : Int := 22

/-- `QD_MAX_MODES` -/
def qdMaxModes : Nat := 6

/-- `VPBlock` of `mac/video.h`, but for its bounds, which nobody looks at. -/
structure VPBlock where
  vpBaseOffset : Int32
  vpRowBytes : Int16
  vpVersion : Int16
  vpPackType : Int16
  vpPackSize : Int32
  vpHRes : Int32
  vpVRes : Int32
  vpPixelType : Int16
  vpPixelSize : Int16
  vpCmpCount : Int16
  vpCmpSize : Int16
  vpPlaneBytes : Int32
deriving Repr, DecidableEq

/-- The fields of `struct video` that are used here. -/
structure Video where
  videoSlot : Int32
  videoMemY : Int32
  videoAddr : UInt32
deriving Repr, DecidableEq

/-- What the driver uses: an entry of `video_desc` or `fb_vp`, palette entries that it asks the Mac
video driver to put into `fb_c`, a byte of `fb_c` or `transData`, a call of `dophys`.
-/
inductive Use where
  | videoDesc (index : Nat)
  | fbVp (device : Nat) (mode : Int)
  | getEntries (count : Nat)
  | fbC (offset : Int)
  | transData (offset : Int)
  | dophys (addr : UInt32) (size : Int32) (videoAddr : UInt32)
deriving Repr, DecidableEq

/-- The driver's variables, with what lies around them, and what it has used so far. -/
structure Vars where
  videoCount : Nat
  videoDesc : Nat → Video
  fbVp : Nat → Int → VPBlock
  fbC : Int → UInt8
  uses : List Use

/-- The Slot Manager's answers for a slot, and for a mode of it: an error, or the slot found, the
mode's struct and the block in it.
-/
structure SlotManager where
  sNextTypeSRsrc : Int → Except Int Int
  sFindStruct : Int → Int → Except Int Unit
  sGetBlock : Int → Int → Except Int VPBlock

/-- What surrounds the driver during a call. `csMode` is the mode that the Mac video driver reports,
`getEntries` what it answers for so many palette entries, `uiomove` and `dophys` are the
errors of these calls, if they are not zero.
-/
structure Machine where
  nscreens : Nat
  slots : SlotManager
  csMode : Int16
  getEntries : Nat → Except Int Mem
  transData : TransData
  uiomove : Int
  dophys : Int

abbrev Call (α : Type) := EStateM Int Vars α

def use (used : Use) : Call Unit :=
  modify fun vars => { vars with uses := vars.uses ++ [used] }

/-- `video_desc[index]` -/
def videoDescAt (index : Nat) : Call Video := do
  use (.videoDesc index)
  return (← get).videoDesc index

/-- `fb_vp[device][mode]` -/
def fbVpAt (device : Nat) (mode : Int) : Call VPBlock := do
  use (.fbVp device mode)
  return (← get).fbVp device mode

-----------------------------------------------------------------------------------------
-- Video utility functions
-----------------------------------------------------------------------------------------

def fbGetVpblock (slots : SlotManager) (slot mode : Int) : Except Int VPBlock := do
  let found ← slots.sNextTypeSRsrc slot
  -- are we still looking at the right slot?
  if found ≠ slot then
    throw (-1)
  else
    slots.sFindStruct slot mode
    slots.sGetBlock slot mode

/-- The loop of `fb_update_modelist` from a mode on, with space for `left` modes. -/
def cacheModes (slots : SlotManager) (videoId : Nat) (slot : Int) : Nat → Nat → Call Unit
  | 0, _ => pure ()
  | left + 1, modeindex => do
      use (.fbVp videoId modeindex)
      match fbGetVpblock slots slot (0x80 + modeindex) with
      | .error _ => pure ()
      | .ok vpb =>
          modify fun vars =>
            { vars with
              fbVp :=
                Function.update vars.fbVp videoId
                  (Function.update (vars.fbVp videoId) modeindex vpb) }
          cacheModes slots videoId slot left (modeindex + 1)

def fbUpdateModelist (machine : Machine) (videoId : Nat) : Call Unit := do
  let v ← videoDescAt videoId
  cacheModes machine.slots videoId v.videoSlot.toInt qdMaxModes 0

/-- The mode number is a `short`, and no error of `kallDriver` is looked at. -/
def fbCurrentMode (machine : Machine) : Int := machine.csMode.toInt

/-- `1 << count` as the 680x0 computes it: the count is taken modulo 64. -/
def shiftedOne (count : Int16) : Int32 :=
  if count.toInt % 64 < 32 then Int32.ofInt (2 ^ (count.toInt % 64).toNat) else 0

/-- The entries that the driver is asked for: `count`, an `unsigned short`, is one less. -/
def entriesFor (vpPixelSize : Int16) : Nat :=
  let colours := shiftedOne vpPixelSize
  (colours - 1).toUInt32.toUInt16.toNat + 1

/-- The entries that are asked for to read the palette of a device. -/
def entriesAsked (machine : Machine) (devIndex : Nat) (vars : Vars) : Nat :=
  entriesFor (vars.fbVp devIndex (fbCurrentMode machine - 0x80)).vpPixelSize

/-- `fb_c` once the driver has put `count` entries into it, eight bytes each. It has space for 256:
what more of them does to the variables behind it, `fb_vp` first, is not said here, and what is
proved of the variables after such a call asks for no more.
-/
def Vars.withEntries (vars : Vars) (count : Nat) (table : Mem) : Vars :=
  { vars with fbC := fun k => if 0 ≤ k ∧ k < 8 * count then table k.toNat else vars.fbC k }

/-- The callers do not look at the result. -/
def fbGetClutFor (machine : Machine) (idx : Nat) : Call Int := do
  let _ ← videoDescAt idx
  let vp ← fbVpAt idx (fbCurrentMode machine - 0x80)
  let count := entriesFor vp.vpPixelSize
  use (.getEntries count)
  match machine.getEntries count with
  | .error ret => return ret
  | .ok table =>
      modify fun vars => vars.withEntries count table
      return 0

-----------------------------------------------------------------------------------------
-- Phys utilities
-----------------------------------------------------------------------------------------

/-- The loop of `fb_fb_size` from mode `i` on. -/
def findMode8 (videoId : Nat) : Nat → Nat → Call (Option Nat)
  | 0, _ => return none
  | left + 1, i => do
      let vp ← fbVpAt videoId i
      if vp.vpPixelSize ≥ 8 then
        return some i
      else
        findMode8 videoId left (i + 1)

def fbFbSize (videoId : Nat) : Call Int32 := do
  match ← findMode8 videoId qdMaxModes 0 with
  | none => return -1
  | some mode8 =>
      let vp ← fbVpAt videoId mode8
      let v ← videoDescAt videoId
      return vp.vpRowBytes.toInt32 * v.videoMemY

def fbPhys (machine : Machine) (videoId : Nat) (addr : UInt32) : Call Unit := do
  let size ← fbFbSize videoId
  let v ← videoDescAt videoId
  use (.dophys addr size v.videoAddr)
  if machine.dophys = 0 then
    pure ()
  else
    throw machine.dophys

-----------------------------------------------------------------------------------------
-- The actual driver
-----------------------------------------------------------------------------------------

def fbOpen (machine : Machine) (minor : Nat) : Call Unit := do
  if minor ≥ machine.nscreens then
    throw einval
  else
    fbUpdateModelist machine minor

/-- The result is the size that `uiomove` is given. -/
def fbRead (machine : Machine) (devIndex : Nat) : Call Int32 := do
  if devIndex ≥ (← get).videoCount then
    throw einval
  else
    let v ← videoDescAt devIndex
    let vp ← fbVpAt devIndex (fbCurrentMode machine - 0x80)
    let size := vp.vpRowBytes.toInt32 * v.videoMemY
    if machine.uiomove = 0 then
      return size
    else
      throw machine.uiomove

/-- `case FB_MODE` -/
def ioctlMode (machine : Machine) (devIndex : Nat) : Call VPBlock := do
  let _ ← videoDescAt devIndex
  let i := fbCurrentMode machine - 0x80
  if i ≥ qdMaxModes then
    throw einval
  else
    fbVpAt devIndex i

/-- `count` bytes of `fb_c` from `base` on. -/
def copyFbC (base : Int) (count : Nat) : Call Mem := do
  modify fun vars =>
    { vars with uses := vars.uses ++ (List.range count).map fun (i : Nat) => .fbC (base + i) }
  let vars ← get
  return fun i => vars.fbC (base + i)

/-- `case FB_CLUT_CHUNK`; what it reads of `video_index` it does not use. -/
def ioctlClutChunk (machine : Machine) (devIndex : Nat) (chunk : Int16) : Call Mem := do
  let base := chunk.toInt * 64
  let _ ← fbGetClutFor machine devIndex
  copyFbC base 64

/-- `case FB_CLUT_HASH` -/
def ioctlClutHash (machine : Machine) (devIndex : Nat) : Call UInt32 := do
  let _ ← videoDescAt devIndex
  let _ ← fbGetClutFor machine devIndex
  let table ← copyFbC 0 2048
  return fbClutHash table

/-- `case FB_KB_KCHR_CHUNK` -/
def ioctlKbKchrChunk (machine : Machine) (chunk : Int16) : Call Mem :=
  match fbKchrChunk machine.transData chunk.toInt with
  | none => throw einval
  | some data => do
      let base := chunk.toInt * 96
      modify fun vars =>
        { vars with
          uses := vars.uses ++ (List.range 96).map fun (i : Nat) => .transData (base + i) }
      return data

/-- Nothing has been used yet. -/
def Vars.fresh (vars : Vars) : Vars := { vars with uses := [] }

@[simp]
theorem Vars.fresh_uses (vars : Vars) : vars.fresh.uses = [] := rfl

@[simp]
theorem Vars.fresh_fresh (vars : Vars) : vars.fresh.fresh = vars.fresh := rfl

/-- What a call uses. -/
def usesOf {α : Type} (call : Call α) (vars : Vars) : List Use :=
  (endState (call vars.fresh)).uses

/-- The call returns an error. -/
def Fails {α : Type} (call : Call α) (vars : Vars) : Prop :=
  ∃ e after, call vars.fresh = .error e after

/-- What a process gets for an ioctl: nothing when it returns an error. -/
def answer {α : Type} (call : Call α) (vars : Vars) : Option α :=
  match call vars with
  | .ok value _ => some value
  | .error _ _ => none

/-- The call returns an error, or all that it uses is good. -/
def KeepsTo {α : Type} (good : Use → Prop) (vars : Vars) (call : Call α) : Prop :=
  Fails call vars ∨ ∀ used ∈ usesOf call vars, good used

section KeepsTo

variable {α : Type} {good : Use → Prop} {vars after : Vars} {call : Call α}

/-- A call that returns keeps to what is good exactly when its uses are. -/
theorem keepsTo_ok {value : α} (returned : call vars.fresh = .ok value after)
    : KeepsTo good vars call ↔ ∀ used ∈ after.uses, good used := by
  have uses : usesOf call vars = after.uses := by
    rw [usesOf, returned, endState]
  have returns : ¬Fails call vars := by
    rintro ⟨e, last, failed⟩
    rw [returned] at failed
    cases failed
  rw [KeepsTo, uses]
  exact or_iff_right returns

theorem keepsTo_error {e : Int} (failed : call vars.fresh = .error e after)
    : KeepsTo good vars call :=
  Or.inl ⟨e, after, failed⟩

end KeepsTo

-----------------------------------------------------------------------------------------
-- What the palette functions do
-----------------------------------------------------------------------------------------

/-- The variables once `fb_getCLUTFor` has read the palette of a device. -/
def Vars.refreshed (vars : Vars) (machine : Machine) (idx : Nat) : Vars :=
  let mode := fbCurrentMode machine - 0x80
  let count := entriesFor (vars.fbVp idx mode).vpPixelSize
  { vars with
    fbC :=
      match machine.getEntries count with
      | .error _ => vars.fbC
      | .ok table => (vars.withEntries count table).fbC
    uses := vars.uses ++ [.videoDesc idx, .fbVp idx mode, .getEntries count] }

theorem fbGetClutFor_ok (machine : Machine) (idx : Nat) (vars : Vars)
    : ∃ ret, fbGetClutFor machine idx vars = .ok ret (vars.refreshed machine idx) := by
  cases answer : machine.getEntries
      (entriesFor (vars.fbVp idx (fbCurrentMode machine - 0x80)).vpPixelSize) with
  | error ret =>
      refine ⟨ret, ?_⟩
      simp only [fbGetClutFor, videoDescAt, fbVpAt, use, modify_bind, get_bind, bind_assoc,
        pure_bind, answer, Vars.refreshed]
      simp
      rfl
  | ok table =>
      refine ⟨0, ?_⟩
      simp only [fbGetClutFor, videoDescAt, fbVpAt, use, modify_bind, get_bind, bind_assoc,
        pure_bind, answer, Vars.refreshed]
      simp
      rfl

/-- The bytes that are copied from `base` on are those of `fb_c`. -/
def Vars.copied (vars : Vars) (base : Int) (count : Nat) : Vars :=
  { vars with uses := vars.uses ++ (List.range count).map fun (i : Nat) => .fbC (base + i) }

theorem ioctlClutChunk_ok (machine : Machine) (devIndex : Nat) (chunk : Int16) (vars : Vars)
    : ioctlClutChunk machine devIndex chunk vars
      = .ok (fun i => (vars.refreshed machine devIndex).fbC (chunk.toInt * 64 + (i : Nat)))
        ((vars.refreshed machine devIndex).copied (chunk.toInt * 64) 64) := by
  obtain ⟨ret, refreshed⟩ := fbGetClutFor_ok machine devIndex vars
  rw [ioctlClutChunk, bind_ok refreshed]
  rfl

/-- `FB_CLUT_HASH` uses the device's entry once more. -/
theorem ioctlClutHash_ok (machine : Machine) (devIndex : Nat) (vars : Vars)
    : ∃ hash after, ioctlClutHash machine devIndex vars = .ok hash after
        ∧ after.uses
          = vars.uses ++ .videoDesc devIndex
            :: ((vars.fresh.refreshed machine devIndex).copied 0 2048).uses := by
  obtain ⟨ret, refreshed⟩ :=
    fbGetClutFor_ok machine devIndex { vars with uses := vars.uses ++ [.videoDesc devIndex] }
  have device : videoDescAt devIndex vars
      = .ok (vars.videoDesc devIndex)
        { vars with uses := vars.uses ++ [.videoDesc devIndex] } := rfl
  rw [ioctlClutHash, bind_ok device, bind_ok refreshed]
  refine ⟨_, _, rfl, ?_⟩
  simp [Vars.refreshed, Vars.copied, Vars.fresh]

-----------------------------------------------------------------------------------------
-- A small machine
-----------------------------------------------------------------------------------------

/-- A machine with one screen of 640 by 480 pixels, whose driver hands out a black palette. -/
def oneScreen (csMode : Int16) : Machine where
  nscreens := 6
  slots :=
    { sNextTypeSRsrc := fun slot => .ok slot
      sFindStruct := fun _ _ => .error (-1)
      sGetBlock := fun _ _ => .error (-1) }
  csMode := csMode
  getEntries := fun _ => .ok fun _ => 0
  transData := fun _ => 0
  uiomove := 0
  dophys := 0

/-- A mode of 640 pixels across. -/
def wideMode (vpPixelSize vpRowBytes : Int16) : VPBlock where
  vpBaseOffset := 0
  vpRowBytes := vpRowBytes
  vpVersion := 0
  vpPackType := 0
  vpPackSize := 0
  vpHRes := 0x480000
  vpVRes := 0x480000
  vpPixelType := 0
  vpPixelSize := vpPixelSize
  vpCmpCount := 1
  vpCmpSize := vpPixelSize
  vpPlaneBytes := 0

/-- The variables when all its modes are alike. -/
def oneScreenVars (block : VPBlock) : Vars where
  videoCount := 1
  videoDesc := fun _ => ⟨9, 480, 0xF9000000⟩
  fbVp := fun _ _ => block
  fbC := fun _ => 0
  uses := []

end MiniVnc.Kernel
