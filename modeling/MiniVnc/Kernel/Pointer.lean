import MiniVnc.Kernel.Snapshots

/-! `FB_MOVE_MOUSE` over whole runs of ioctls: what the Mac environment, or whoever has the mouse's
callback, is told of the pointer and its button.
-/

namespace MiniVnc.Kernel
open Library.Memory Library.Interrupts

-----------------------------------------------------------------------------------------
-- Points in low memory
-----------------------------------------------------------------------------------------

/-- The `Point` at an address, its vertical position first. -/
def readPoint (addr : Nat) (mem : Mem) : Int16 × Int16 :=
  ((UInt16.ofNat (read mem addr 2)).toInt16, (UInt16.ofNat (read mem (addr + 2) 2)).toInt16)

theorem readPoint_congr {addr : Nat} {left right : Mem}
    (same : ∀ k < 4, left (addr + k) = right (addr + k))
    : readPoint addr left = readPoint addr right := by
  have v : read left addr 2 = read right addr 2 :=
    read_congr fun k below => same k (Nat.lt_trans below (by decide))
  have h : read left (addr + 2) 2 = read right (addr + 2) 2 := by
    refine read_congr fun k below => ?_
    rw [Nat.add_assoc]
    exact same (2 + k) (Nat.add_lt_add_left below 2)
  rw [readPoint, readPoint, v, h]

/-- A word that is stored is read back. -/
theorem read_write_word (mem : Mem) (addr : Nat) (word : Int16)
    : (UInt16.ofNat (read (write mem addr 2 word.toUInt16.toNat) addr 2)).toInt16 = word := by
  have fits : word.toUInt16.toNat < 256 ^ 2 := word.toUInt16.toNat_lt
  have stored : read (write mem addr 2 word.toUInt16.toNat) addr 2 = word.toUInt16.toNat :=
    (read_eq_iff fits).mpr fun _ inside => write_inside inside
  rw [stored, UInt16.ofNat_toNat, Int16.toInt16_toUInt16]

theorem readPoint_writePoint (addr : Nat) (v h : Int16) (mem : Mem)
    : readPoint addr (writePoint addr v h mem) = (v, h) := by
  have above : read (writePoint addr v h mem) addr 2
      = read (write mem addr 2 v.toUInt16.toNat) addr 2 :=
    read_congr fun _ below => write_outside (Or.inl (Nat.add_lt_add_left below addr))
  rw [readPoint, above, read_write_word, writePoint, read_write_word]

theorem writePoint_outside {addr k : Nat} {v h : Int16} {mem : Mem}
    (outside : k < addr ∨ addr + 4 ≤ k)
    : writePoint addr v h mem k = mem k := by
  have lower : k < addr ∨ addr + 2 ≤ k := by omega
  have upper : k < addr + 2 ∨ addr + 2 + 2 ≤ k := by omega
  rw [writePoint, write_outside upper, write_outside lower]

theorem readPoint_writePoint_other {addr other : Nat} {v h : Int16} {mem : Mem}
    (apart : addr + 4 ≤ other ∨ other + 4 ≤ addr)
    : readPoint addr (writePoint other v h mem) = readPoint addr mem :=
  readPoint_congr fun k below => writePoint_outside (by omega)

theorem readPoint_update {addr k : Nat} {byte : UInt8} {mem : Mem}
    (outside : k < addr ∨ addr + 4 ≤ k)
    : readPoint addr (Function.update mem k byte) = readPoint addr mem :=
  readPoint_congr fun j below => Function.update_of_ne (by omega) _ _

-----------------------------------------------------------------------------------------
-- The Mac environment's mouse
-----------------------------------------------------------------------------------------

/-- What the Mac environment's mouse is: its low memory globals and the clicks it has been posted.
-/
structure MacMouse where
  uiDevices : Int32
  active : Int8
  mbState : UInt8
  mTemp : Int16 × Int16
  rawMouse : Int16 × Int16
  posted : List Posted

def Devices.macMouse {κ : Type} (devices : Devices κ) : MacMouse where
  uiDevices := devices.uiDevices
  active := devices.uiActive
  mbState := devices.uiLowaddr Kernel.mbState
  mTemp := readPoint Kernel.mTemp devices.uiLowaddr
  rawMouse := readPoint Kernel.rawMouse devices.uiLowaddr
  posted := devices.posted

/-- `MBSTATE` for a button. -/
def buttonByte (button : Int16) : UInt8 :=
  if button ≠ 0 then 0x00 else 0x80

def clickKind (button : Int16) : EventKind :=
  if button ≠ 0 then .mouseDown else .mouseUp

/-- The event for a button that finds `MBSTATE`: none when that says the same. -/
def clickOf (active : Int8) (mbState : UInt8) (button : Int16) : List Posted :=
  if mbState = buttonByte button then [] else [⟨active.toInt32, clickKind button⟩]

/-- What one `FB_MOVE_MOUSE` does to it. -/
def MacMouse.moved (mac : MacMouse) (mouse : FbMouse) : MacMouse :=
  { mac with
    mbState := buttonByte mouse.button
    mTemp := (mouse.y, mouse.x)
    rawMouse := (mouse.y, mouse.x)
    posted := mac.posted ++ clickOf mac.active mac.mbState mouse.button }

section

variable {κ ι : Type} {others : Others κ}

/-- The other drivers leave the Mac environment's mouse alone, but for what is posted. -/
structure LeavesMouse (others : Others κ) (irq : Source ι (Devices κ)) : Prop where
  handle : ∀ i devices, (irq.handle i devices).macMouse = devices.macMouse
  callback : ∀ called devices, (others.callback called devices).macMouse = devices.macMouse
  uiPostevent : ∀ event devices,
    (others.uiPostevent event devices).macMouse = devices.macMouse

theorem macMouse_mTemp (devices : Devices κ) (v h : Int16)
    : { devices with uiLowaddr := writePoint mTemp v h devices.uiLowaddr }.macMouse
      = { devices.macMouse with mTemp := (v, h) } := by
  have button : writePoint mTemp v h devices.uiLowaddr mbState = devices.uiLowaddr mbState :=
    writePoint_outside (by decide)
  have raw : readPoint rawMouse (writePoint mTemp v h devices.uiLowaddr)
      = readPoint rawMouse devices.uiLowaddr :=
    readPoint_writePoint_other (by decide)
  simp only [Devices.macMouse, button, raw, readPoint_writePoint]

theorem macMouse_rawMouse (devices : Devices κ) (v h : Int16)
    : { devices with uiLowaddr := writePoint rawMouse v h devices.uiLowaddr }.macMouse
      = { devices.macMouse with rawMouse := (v, h) } := by
  have button : writePoint rawMouse v h devices.uiLowaddr mbState = devices.uiLowaddr mbState :=
    writePoint_outside (by decide)
  have temp : readPoint mTemp (writePoint rawMouse v h devices.uiLowaddr)
      = readPoint mTemp devices.uiLowaddr :=
    readPoint_writePoint_other (by decide)
  simp only [Devices.macMouse, button, temp, readPoint_writePoint]

/-- A byte elsewhere in low memory is none of the mouse's. -/
theorem macMouse_update (devices : Devices κ) {k : Nat}
    (elsewhere
      : k ≠ mbState ∧ (k < mTemp ∨ mTemp + 4 ≤ k) ∧ (k < rawMouse ∨ rawMouse + 4 ≤ k))
    (byte : UInt8)
    : { devices with uiLowaddr := Function.update devices.uiLowaddr k byte }.macMouse
      = devices.macMouse := by
  have button : Function.update devices.uiLowaddr k byte mbState = devices.uiLowaddr mbState :=
    Function.update_of_ne elsewhere.1.symm _ _
  have temp : readPoint mTemp (Function.update devices.uiLowaddr k byte)
      = readPoint mTemp devices.uiLowaddr := readPoint_update elsewhere.2.1
  have raw : readPoint rawMouse (Function.update devices.uiLowaddr k byte)
      = readPoint rawMouse devices.uiLowaddr := readPoint_update elsewhere.2.2
  simp only [Devices.macMouse, button, temp, raw]

theorem macMouse_mbState (devices : Devices κ) (byte : UInt8)
    : { devices with uiLowaddr := Function.update devices.uiLowaddr mbState byte }.macMouse
      = { devices.macMouse with mbState := byte } := by
  have button : Function.update devices.uiLowaddr mbState byte mbState = byte :=
    Function.update_self ..
  have temp : readPoint mTemp (Function.update devices.uiLowaddr mbState byte)
      = readPoint mTemp devices.uiLowaddr := readPoint_update (by decide)
  have raw : readPoint rawMouse (Function.update devices.uiLowaddr mbState byte)
      = readPoint rawMouse devices.uiLowaddr := readPoint_update (by decide)
  simp only [Devices.macMouse, button, temp, raw]

/-- A step on low memory ends as it should when its view does. -/
theorem ends_poke {act : Mem → Mem} (change : MacMouse → MacMouse)
    (changes : ∀ devices : Devices κ,
      { devices with uiLowaddr := act devices.uiLowaddr }.macMouse = change devices.macMouse)
    {ends : Unit → MacMouse → Prop} {mac : MacMouse} (after : ends () (change mac))
    : (poke act : KernelCode κ Unit).Ends Devices.macMouse ends mac := by
  intro devices seen
  show ends () ({ devices with uiLowaddr := act devices.uiLowaddr }.macMouse)
  rw [changes devices, seen]
  exact after

theorem ends_uiPostevent {irq : Source ι (Devices κ)} (leaves : LeavesMouse others irq)
    {event : Posted} {ends : Unit → MacMouse → Prop} {mac : MacMouse}
    (after : ends () { mac with posted := mac.posted ++ [event] })
    : (uiPostevent others event).Ends Devices.macMouse ends mac := by
  intro devices seen
  have posted : devices.posted = mac.posted := congrArg MacMouse.posted seen
  show ends () { (others.uiPostevent event devices).macMouse with
    posted := devices.posted ++ [event] }
  rw [leaves.uiPostevent, seen, posted]
  exact after

/-- By cases on whether the button has changed. -/
theorem fbUiMouse_ends {irq : Source ι (Devices κ)} (leaves : LeavesMouse others irq)
    (x y button : Int16) (mac : MacMouse)
    : (fbUiMouse others x y button).Ends Devices.macMouse
        (fun _ later => later = mac.moved ⟨x, y, button⟩) mac := by
  refine .bind (ends_poke (fun mac => { mac with mTemp := (y, x) })
    (fun devices => macMouse_mTemp devices y x) ?_)
  refine .bind (ends_poke (fun mac => { mac with rawMouse := (y, x) })
    (fun devices => macMouse_rawMouse devices y x) ?_)
  refine .bind (ends_poke id (fun devices => macMouse_update devices (by decide) _) ?_)
  intro devices seen
  have old : devices.uiLowaddr mbState = mac.mbState := congrArg MacMouse.mbState seen
  show Code.Ends _ _ (if devices.uiLowaddr mbState ≠ buttonByte button then _ else _)
    devices.macMouse
  rw [old, seen]
  by_cases same : mac.mbState = buttonByte button
  · rw [if_neg (not_not.mpr same)]
    show _ = mac.moved ⟨x, y, button⟩
    simp [MacMouse.moved, clickOf, same]
  · rw [if_pos same]
    refine .bind (ends_poke (fun mac => { mac with mbState := buttonByte button })
      (fun devices => macMouse_mbState devices _) ?_)
    intro later seen'
    have active : later.uiActive = mac.active := congrArg MacMouse.active seen'
    show Code.Ends _ _ (if button ≠ 0 then
        uiPostevent others ⟨later.uiActive.toInt32, .mouseDown⟩
      else uiPostevent others ⟨later.uiActive.toInt32, .mouseUp⟩) later.macMouse
    rw [active, seen']
    split
    · refine ends_uiPostevent leaves ?_
      simp [MacMouse.moved, clickOf, clickKind, *]
    · refine ends_uiPostevent leaves ?_
      simp [MacMouse.moved, clickOf, clickKind, *]

/-- A callback leaves the Mac environment's mouse alone. -/
theorem ends_callCallback {irq : Source ι (Devices κ)} (leaves : LeavesMouse others irq)
    (called : Called) {ends : Unit → MacMouse → Prop} {mac : MacMouse} (after : ends () mac)
    : (callCallback others called).Ends Devices.macMouse ends mac := by
  intro devices seen
  show ends () { (others.callback called devices).macMouse with posted := devices.posted }
  rw [leaves.callback]
  show ends () devices.macMouse
  rw [seen]
  exact after

/-- In the Mac environment the mouse is moved as such. -/
theorem peekingMoveMouseTo_ends {irq : Source ι (Devices κ)} (leaves : LeavesMouse others irq)
    (id : Nat) (x y button : Int16) {mac : MacMouse} (claimed : mac.uiDevices ≠ 0)
    : (peekingMoveMouseTo others id x y button).Ends Devices.macMouse
        (fun _ later => later = mac.moved ⟨x, y, button⟩) mac := by
  intro devices seen
  have same : devices.uiDevices = mac.uiDevices := congrArg MacMouse.uiDevices seen
  show Code.Ends _ _ (if devices.uiDevices ≠ 0 then fbUiMouse others x y button else _)
    devices.macMouse
  rw [same, if_pos claimed, seen]
  exact fbUiMouse_ends leaves x y button mac

/-- The mouse moves that a request asks for. -/
def InputRequest.moves : InputRequest → List FbMouse
  | .moveMouse mouse => [mouse]
  | _ => []

/-- One ioctl, by cases on the request. -/
theorem peekingIoctl_ends {irq : Source ι (Devices κ)} (leaves : LeavesMouse others irq)
    (vsrc : Attached) (request : InputRequest) {mac : MacMouse} (claimed : mac.uiDevices ≠ 0)
    : (peekingIoctl others vsrc request).Ends Devices.macMouse
        (fun _ later => later = request.moves.foldl MacMouse.moved mac) mac := by
  cases request with
  | moveMouse mouse => exact .bind (peekingMoveMouseTo_ends leaves _ _ _ _ claimed)
  | kbMode => exact fun _ seen => seen
  | kbKchr i =>
      refine .bind fun devices seen => ?_
      exact ends_callCallback leaves _ (show devices.macMouse = mac from seen)
  | mouseState => exact fun _ seen => seen
  | kbKeypress key flags =>
      refine .bind fun devices seen => ?_
      exact ends_callCallback leaves _ (show devices.macMouse = mac from seen)

theorem foldl_moved_uiDevices (moves : List FbMouse) (mac : MacMouse)
    : (moves.foldl MacMouse.moved mac).uiDevices = mac.uiDevices
      ∧ (moves.foldl MacMouse.moved mac).active = mac.active := by
  induction moves generalizing mac with
  | nil => exact ⟨rfl, rfl⟩
  | cons mouse moves ih => exact ih (mac.moved mouse)

/-- The mouse moves among ioctls. -/
def movesOf (requests : List (Attached × InputRequest)) : List FbMouse :=
  requests.flatMap fun request => request.2.moves

/-- Over any ioctls the Mac environment's mouse does as the moves among them say. -/
theorem fbInputIoctls_macMouse {irq : Source ι (Devices κ)} (leaves : LeavesMouse others irq)
    {requests : List (Attached × InputRequest)} {cpu last : Cpu (Devices κ)}
    {log : List (ι × Devices κ)} {answers : List (List Int32)}
    (claimed : cpu.memory.uiDevices ≠ 0)
    (run : Runs irq (fbInputIoctls others requests) cpu log answers last)
    : last.memory.macMouse = (movesOf requests).foldl MacMouse.moved cpu.memory.macMouse := by
  rw [movesOf, List.foldl_flatMap]
  refine fbInputIoctls_folds (fun mac : MacMouse => mac.uiDevices ≠ 0) leaves.handle ?_ claimed run
  intro vsrc request mac claimed
  have still := (foldl_moved_uiDevices request.moves mac).1
  refine (peekingIoctl_ends leaves vsrc request claimed).weaken fun _ later moved => ?_
  rw [moved]
  exact ⟨rfl, still ▸ claimed⟩

end

-----------------------------------------------------------------------------------------
-- Clicks
-----------------------------------------------------------------------------------------

/-- The events for buttons one after another: one for each that changes `MBSTATE`. -/
def clicks (active : Int8) (mbState : UInt8) : List Int16 → List Posted
  | [] => []
  | button :: buttons =>
      clickOf active mbState button ++ clicks active (buttonByte button) buttons

theorem foldl_moved_posted (moves : List FbMouse) (mac : MacMouse)
    : (moves.foldl MacMouse.moved mac).posted
      = mac.posted ++ clicks mac.active mac.mbState (moves.map (·.button)) := by
  induction moves generalizing mac with
  | nil => simp [clicks]
  | cons mouse moves ih =>
      rw [List.foldl_cons, ih, List.map_cons, clicks, ← List.append_assoc]
      rfl

/-- The last move decides where the pointer is and whether the button is down. -/
theorem foldl_moved_last (moves : List FbMouse) (mouse : FbMouse) (mac : MacMouse)
    : let after := (moves ++ [mouse]).foldl MacMouse.moved mac
      after.mTemp = (mouse.y, mouse.x) ∧ after.rawMouse = (mouse.y, mouse.x)
        ∧ after.mbState = buttonByte mouse.button := by
  rw [List.foldl_append]
  exact ⟨rfl, rfl, rfl⟩

/-- `MBSTATE` is one of the two values that it is given. -/
def Settled (mbState : UInt8) : Prop := mbState = 0x00 ∨ mbState = 0x80

theorem settled_buttonByte (button : Int16) : Settled (buttonByte button) := by
  unfold buttonByte
  split
  · exact .inl rfl
  · exact .inr rfl

/-- The click that `MBSTATE` is left by. -/
def lastClick (mbState : UInt8) : EventKind :=
  if mbState = 0x00 then .mouseDown else .mouseUp

theorem lastClick_buttonByte (button : Int16)
    : lastClick (buttonByte button) = clickKind button := by
  unfold buttonByte clickKind
  split <;> rfl

/-- The events alternate, beginning with the one that the button's state leaves open, by induction
on the buttons.
-/
theorem clicks_alternate (active : Int8) {mbState : UInt8} (settled : Settled mbState)
    (buttons : List Int16)
    : (lastClick mbState :: (clicks active mbState buttons).map (·.kind)).IsChain (· ≠ ·) := by
  induction buttons generalizing mbState with
  | nil => exact .singleton _
  | cons button buttons ih =>
      have rest := ih (settled_buttonByte button)
      rw [lastClick_buttonByte] at rest
      rw [clicks, clickOf]
      split
      case isTrue same =>
        rw [same, lastClick_buttonByte]
        exact rest
      case isFalse changed =>
        refine .cons_cons ?_ rest
        rw [← lastClick_buttonByte]
        rcases settled with rfl | rfl <;> rcases settled_buttonByte button with new | new
        · exact absurd new.symm changed
        · rw [new]
          show lastClick 0x00 ≠ lastClick 0x80
          decide
        · rw [new]
          show lastClick 0x80 ≠ lastClick 0x00
          decide
        · exact absurd new.symm changed

/-- A clock that interrupts, and counts in low memory. -/
def ticking : Source Unit (Devices (Bool × Nat × SwapOp → Int32)) where
  top := 7
  priority _ := 1
  handle _ devices :=
    { devices with
      uiLowaddr := Function.update devices.uiLowaddr 0x16D (devices.uiLowaddr 0x16D + 1) }
  priority_le _ := by decide

/-- The quiet devices after a tick. -/
def ticked : Devices (Bool × Nat × SwapOp → Int32) :=
  ticking.handle () quietDevices

end MiniVnc.Kernel
