import MiniVnc.Keyboard.Keysyms
import MiniVnc.Keyboard.Kchr
import MiniVnc.Library.Stream
import MiniVnc.SessionError

/-! `keyboard_mess.c` and the key events of `session.c`: keyboards are a mess, and handling them
is full of edge cases. A keysym becomes the key codes that are injected for it.
-/

namespace MiniVnc
open Library.Stream

/-- `keypresses`: at most six key codes, in the order of pressing them. -/
structure Keypresses where
  keys : List UInt8
  fits : keys.length ≤ 6
deriving Repr, DecidableEq

def Keypresses.empty : Keypresses := ⟨[], by decide⟩

def rawKeypress (c : UInt8) : Keypresses := ⟨[c], by simp⟩

/-- The cases of `keysym_special_to_keypresses`, but for the digits of the keypad. -/
def specialKeys : List (UInt32 × UInt8) :=
  [
    (xkShiftL, KeyCode.shift),
    (xkShiftR, KeyCode.shift),
    (xkControlL, KeyCode.ctrl),
    (xkControlR, KeyCode.ctrl),
    (xkCapsLock, KeyCode.lock),
    (xkMetaL, KeyCode.command),
    (xkMetaR, KeyCode.command),
    (xkSuperL, KeyCode.command),
    (xkSuperR, KeyCode.command),
    (xkHyperL, KeyCode.command),
    (xkHyperR, KeyCode.command),
    (xkAltL, KeyCode.option),
    (xkAltR, KeyCode.option),
    (xkKpMultiply, KeyCode.kpMultiply),
    (xkKpAdd, KeyCode.kpPlus),
    (xkKpSubtract, KeyCode.kpMinus),
    (xkKpDecimal, KeyCode.kpDecimal),
    (xkKpDivide, KeyCode.kpDivide),
    (xkKpEnter, KeyCode.kpEnter)
  ]

/-- The key that a special keysym stands for. -/
def specialKey? (keysym : UInt32) : Option UInt8 :=
  if xkKp0 ≤ keysym ∧ keysym ≤ xkKp9 then some ((keysym - xkKp0).toUInt8 + KeyCode.kp0)
  else specialKeys.lookup keysym

def keysymSpecialToKeypresses (keysym : UInt32) : Keypresses :=
  match specialKey? keysym with
  | some key => rawKeypress key
  | none => .empty

/-- The bits of `modifiers` with their keys, in the order in which they are checked. -/
def modifierBits : List (UInt8 × UInt8) :=
  [
    (kchrCmdKey, KeyCode.command),
    (kchrShiftKey, KeyCode.shift),
    (kchrLockKey, KeyCode.lock),
    (kchrOptionKey, KeyCode.option),
    (kchrCtrlKey, KeyCode.ctrl)
  ]

/-- The keys to hold for the modifiers. -/
def modifierKeys (modifiers : UInt8) : List UInt8 :=
  (modifierBits.filter fun bit => modifiers &&& bit.1 ≠ 0).map Prod.snd

theorem modifierKeys_length (modifiers : UInt8) : (modifierKeys modifiers).length ≤ 5 := by
  rw [modifierKeys, List.length_map]
  exact List.length_filter_le _ modifierBits

/-- The six places suffice for the modifiers with the key itself. -/
def vkeyToKeypresses (vk : KchrVkeypress) : Keypresses :=
  if vk.valid = 0 then
    .empty
  else
    ⟨modifierKeys vk.modifiers ++ [vk.keycode], by
      have length := modifierKeys_length vk.modifiers
      simp only [List.length_append, List.length_singleton]
      omega⟩

/-- The modes of the keyboard that are told apart. -/
inductive KeyMode where
  | araw
  | ascii
  | mac
  | other (mode : Int)
deriving Repr, DecidableEq

/-- The keyboard as it is used through `/dev/fb0`: the answer to each mode ioctl, `none` for one
that fails; whether it accepts the n-th key code; and the codes injected so far.
-/
structure Keyboard where
  mode : Nat → Option KeyMode
  modeReads : Nat
  accepts : Nat → UInt8 → Bool
  injected : List UInt8

/-- The part of `session` that key events work on. -/
structure KeySession where
  keyboard : Keyboard
  kchr : KchrState

abbrev Keys (α : Type) := EStateM SessionError KeySession α

/-- The mode has been read once more. -/
def KeySession.modeRead (s : KeySession) : KeySession :=
  { s with keyboard := { s.keyboard with modeReads := s.keyboard.modeReads + 1 } }

def kbMode : Keys KeyMode := fun s =>
  match s.keyboard.mode s.keyboard.modeReads with
  | some mode => .ok mode s.modeRead
  | none => .error .keyboardIoctlFailed s.modeRead

def doKey (code : UInt8) : Keys Unit := fun s =>
  if s.keyboard.accepts s.keyboard.injected.length code then
    .ok ()
      { s with keyboard := { s.keyboard with injected := s.keyboard.injected ++ [code] } }
  else
    .error .keyboardIoctlFailed s

def doKeyDown (kp : Keypresses) : Keys Unit := run doKey kp.keys

/-- key up have top bit set -/
def doKeyUp (kp : Keypresses) : Keys Unit := run (fun k => doKey (k ||| 0x80)) kp.keys.reverse

def vncEvtKeyAraw (evt : VNCKeyEvent) : Keys Unit := do
  -- is this a special character?
  let k := keysymSpecialToKeypresses evt.key
  if k.keys.length ≠ 0 then
    if evt.down ≠ 0 then doKeyDown k else doKeyUp k
  else
    let mr := keysymToMacroman evt.key
    let s ← get
    let kc := kchrKeysForChar s.kchr mr
    -- is this a two key sequence?
    if kc.snd.valid ≠ 0 then
      if evt.down ≠ 0 then
        -- A key down consists of a full keypress of the first key and a key down of the second
        doKeyDown (vkeyToKeypresses kc.fst)
        doKeyUp (vkeyToKeypresses kc.fst)
        doKeyDown (vkeyToKeypresses kc.snd)
      else
        -- A key up is just a key up of the second.
        doKeyUp (vkeyToKeypresses kc.snd)
    else
      let k := vkeyToKeypresses kc.fst
      if evt.down ≠ 0 then
        doKeyDown k
        -- after a carriage return, key-up follows immediately, for CommandShell
        if kc.fst.keycode = 0x24 then doKeyUp k else pure ()
      else if kc.fst.keycode ≠ 0x24 then
        doKeyUp k
      else
        pure ()

/-- Key ups are irrelevant in ASCII and MAC modes. -/
def vncEvtKeyAscii (evt : VNCKeyEvent) : Keys Unit :=
  let mr := keysymToMacroman evt.key
  if mr > 127 then
    pure ()
  else if evt.down ≠ 0 then
    doKeyDown (rawKeypress mr)
  else
    pure ()

def vncEvtKey (evt : VNCKeyEvent) : Keys Unit := do
  match ← kbMode with
  | .araw => vncEvtKeyAraw evt
  | .ascii | .mac => vncEvtKeyAscii evt
  | .other _ =>
      -- the message about the unsupported mode asks for it again
      discard kbMode

end MiniVnc
