import MiniVnc.Library.Interrupts
import MiniVnc.Library.Memory

/-! `fb.c`: the ioctls on the mouse and the keyboard, as code that interrupts may come between. The
modes and callbacks are hidden in the other drivers, which only swap them.
-/

namespace MiniVnc.Kernel
open Library.Memory Library.Interrupts

/-- The operations of `mouse_op` and `key_op` that are used. -/
inductive SwapOp where
  | mode
  | intr
deriving Repr, DecidableEq

/-- A variable of another driver, somewhere in its state. -/
structure Hidden (κ : Type) where
  read : κ → Int32
  write : Int32 → κ → κ
  read_write : ∀ x state, read (write x state) = x
  write_read : ∀ state, write (read state) state = state
  write_write : ∀ x y state, write y (write x state) = write y state

/-- What a callback is called for. -/
inductive Action where
  | mouseChange
  | kcChar
deriving Repr, DecidableEq

/-- A call of a callback, with its arguments. -/
structure Called where
  callback : Int32
  id : Nat
  action : Action
  data : Int32
  flags : Int32
deriving Repr, DecidableEq

inductive EventKind where
  | mouseDown
  | mouseUp
deriving Repr, DecidableEq

/-- An event that `UI_postevent` is given for a layer. -/
structure Posted where
  active : Int32
  kind : EventKind
deriving Repr, DecidableEq

/-- What `fb.c` shares with the other drivers, what it has had them do, and the rest of them. -/
structure Devices (κ : Type) where
  mouseX : Nat → Int32
  mouseY : Nat → Int32
  mouseButton : Nat → Int32
  uiDevices : Int32
  uiActive : Int8
  uiLowaddr : Mem
  posted : List Posted
  called : List Called
  rest : κ

/-- The other drivers. What callbacks and posted events lead to is up to them. -/
structure Others (κ : Type) where
  mouse : Nat → SwapOp → Hidden κ
  key : Nat → SwapOp → Hidden κ
  callback : Called → Devices κ → Devices κ
  uiPostevent : Posted → Devices κ → Devices κ

/-- `struct fb_mouse` -/
structure FbMouse where
  x : Int16
  y : Int16
  button : Int16
deriving Repr, DecidableEq

/-- The ioctls on input devices, with what a process passes. -/
inductive InputRequest where
  | moveMouse (mouse : FbMouse)
  | kbMode
  | kbKchr (kchr : Int32)
  | mouseState
  | kbKeypress (key flags : Int32)
deriving Repr, DecidableEq

section

variable {κ : Type} (others : Others κ)

abbrev KernelCode (κ α : Type) := Code (Devices κ) α

def splhi : KernelCode κ Nat :=
  .raise .done

def splx (level : Nat) : KernelCode κ Unit :=
  .restore level (.done ())

/-- Swaps a hidden variable. -/
def swap (hidden : Hidden κ) (value : Int32) : KernelCode κ Int32 :=
  .one fun devices =>
    (hidden.read devices.rest, { devices with rest := hidden.write value devices.rest })

def mouseOp (id : Nat) (op : SwapOp) (value : Int32) : KernelCode κ Int32 :=
  swap (others.mouse id op) value

def keyOp (id : Nat) (op : SwapOp) (value : Int32) : KernelCode κ Int32 :=
  swap (others.key id op) value

/-- The call is noted, and whatever it leads to leaves the notes alone. -/
def callCallback (called : Called) : KernelCode κ Unit :=
  .one fun devices =>
    ((),
      { others.callback called devices with
        called := devices.called ++ [called]
        posted := devices.posted })

def uiPostevent (event : Posted) : KernelCode κ Unit :=
  .one fun devices =>
    ((),
      { others.uiPostevent event devices with
        posted := devices.posted ++ [event]
        called := devices.called })

-----------------------------------------------------------------------------------------
-- Mouse utility functions
-----------------------------------------------------------------------------------------

def fbGetMouseModeAndCallback (id : Nat) : KernelCode κ (Int32 × Int32) := do
  let s ← splhi
  let m ← mouseOp others id .mode 0
  let _ ← mouseOp others id .mode m
  let c ← mouseOp others id .intr 0
  let _ ← mouseOp others id .intr c
  splx s
  return (m, c)

def mbState : Nat := 0x172

def mTemp : Nat := 0x828

def rawMouse : Nat := 0x82C

def crsrNew : Nat := 0x8CE

def crsrCouple : Nat := 0x8CF

/-- A step on the low memory. -/
def poke (act : Mem → Mem) : KernelCode κ Unit :=
  .one fun devices => ((), { devices with uiLowaddr := act devices.uiLowaddr })

/-- A `Point` is its vertical position and its horizontal one, each a short. -/
def writePoint (addr : Nat) (v h : Int16) (mem : Mem) : Mem :=
  write (write mem addr 2 v.toUInt16.toNat) (addr + 2) 2 h.toUInt16.toNat

def fbUiMouse (x y button : Int16) : KernelCode κ Unit := do
  poke (writePoint mTemp y x)
  poke (writePoint rawMouse y x)
  poke fun mem => Function.update mem crsrNew (mem crsrCouple)
  let oldBtn ← Code.look fun devices => devices.uiLowaddr mbState
  let newBtn : UInt8 := if button ≠ 0 then 0x00 else 0x80
  if oldBtn ≠ newBtn then
    poke fun mem => Function.update mem mbState newBtn
    let active ← Code.look fun devices => devices.uiActive
    if button ≠ 0 then
      uiPostevent others ⟨active.toInt32, .mouseDown⟩
    else
      uiPostevent others ⟨active.toInt32, .mouseUp⟩

/-- `rebuff`, the ADB data as from the mouse. -/
def rebuffOf (dx dy : Int32) (button : Int16) : Int32 :=
  let low : Int32 := 0x3f
  let rebuff := (dx &&& low) ||| ((dy &&& low) <<< 8)
  if button ≠ 0 then rebuff ||| ((1 : Int32) <<< 15) else rebuff

/-- A step on the mouse's position and button. -/
def setMouse (act : Devices κ → Devices κ) : KernelCode κ Unit :=
  .one fun devices => ((), act devices)

def fbMoveMouseTo (id : Nat) (x y button : Int16) : KernelCode κ Unit := do
  let uiDevices ← Code.look fun devices => devices.uiDevices
  if uiDevices ≠ 0 then
    fbUiMouse others x y button
  else
    let (mode, call) ← fbGetMouseModeAndCallback others id
    let dx ← Code.look fun devices => x.toInt32 - devices.mouseX id
    let dy ← Code.look fun devices => y.toInt32 - devices.mouseY id
    setMouse fun devices => { devices with mouseX := Function.update devices.mouseX id x.toInt32 }
    setMouse fun devices => { devices with mouseY := Function.update devices.mouseY id y.toInt32 }
    setMouse fun devices =>
      { devices with mouseButton := Function.update devices.mouseButton id button.toInt32 }
    if mode ≠ 0 then
      callCallback others ⟨call, id, .mouseChange, rebuffOf dx dy button, 3⟩

-----------------------------------------------------------------------------------------
-- Keyboard utility functions
-----------------------------------------------------------------------------------------

def fbKbMode (id : Nat) : KernelCode κ Int32 := do
  let x ← splhi
  let mode ← keyOp others id .mode 0
  let _ ← keyOp others id .mode mode
  splx x
  return mode

def fbKbCall (id : Nat) : KernelCode κ Int32 := do
  let x ← splhi
  let c ← keyOp others id .intr 0
  let _ ← keyOp others id .intr c
  splx x
  return c

def fbKbKchr (id : Nat) (kchr flags : Int32) : KernelCode κ Unit := do
  let keycall ← fbKbCall others id
  callCallback others ⟨keycall, id, .kcChar, kchr, flags⟩

-----------------------------------------------------------------------------------------
-- The actual driver
-----------------------------------------------------------------------------------------

/-- The mouse and the keyboard that a screen's `struct video` names. -/
structure Attached where
  videoMouseInd : Nat
  videoKeyInd : Nat
deriving Repr, DecidableEq

/-- The cases of `fb_ioctl` for input devices; the result is what the process is handed back. -/
def fbInputIoctl (vsrc : Attached) : InputRequest → KernelCode κ (List Int32)
  | .moveMouse meese => do
      fbMoveMouseTo others vsrc.videoMouseInd meese.x meese.y meese.button
      return []
  | .kbMode => do
      let i ← fbKbMode others vsrc.videoKeyInd
      return [i]
  | .kbKchr i => do
      fbKbKchr others vsrc.videoKeyInd i 0
      return []
  | .mouseState => do
      let (mode, call) ← fbGetMouseModeAndCallback others vsrc.videoMouseInd
      return [mode, call]
  | .kbKeypress key flags => do
      fbKbKchr others vsrc.videoKeyInd key flags
      return []

/-- Ioctls on any screens after one another, with what each hands back. -/
def fbInputIoctls : List (Attached × InputRequest) → KernelCode κ (List (List Int32))
  | [] => return []
  | (vsrc, request) :: requests => do
      let answer ← fbInputIoctl others vsrc request
      let answers ← fbInputIoctls requests
      return answer :: answers

end

end MiniVnc.Kernel
